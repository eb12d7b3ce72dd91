import DomainLens.DomainPortfolio.Hostnames
import DomainLens.Library.Asking
import Mathlib

/-!
# Judging one message

The mail test works out from a message whether SPF, DKIM and DMARC pass and whether the reverse DNS
of the sending server points back.  Every check rests on lookups, each of which may fail: a verdict
that was given should not depend on the ones that did.
-/

namespace DomainLens
namespace MailTest

open Python DomainPortfolio

/-! ## Lookups -/

/-- An address, as `ipaddress` reads it. -/
inductive Address where
  | v4 (bits : BitVec 32)
  | v6 (bits : BitVec 128)
deriving DecidableEq

/-- What the lookups answer, `none` where one fails: the records at a name or an address, and the
result and explanation of an SPF check or the class of what it raised. -/
structure Lookups where
  resolveTxt : Text → Option (List Text)
  resolveA : Text → Option (List (BitVec 32))
  resolveAaaa : Text → Option (List (BitVec 128))
  resolvePtr : Address → Option (List Text)
  spf : Address × Text × Text → Except Text (Text × Option Text)

/-- The rest of a quoted string, and what follows it. -/
def quotedRest : Text → Option (Text × Text)
  | [] => none
  | '"' :: rest => some ([], rest)
  | ['\\'] => none
  | '\\' :: char :: rest =>
      if char = '\n' then none
      else (quotedRest rest).map fun (inner, rest) => ('\\' :: char :: inner, rest)
  | char :: rest => (quotedRest rest).map fun (inner, rest) => (char :: inner, rest)

/-- The quoted strings of a text, at most so many. -/
def quoted : Nat → Text → List Text
  | 0, _ => []
  | _ + 1, [] => []
  | fuel + 1, '"' :: rest =>
      match quotedRest rest with
      | some (inner, rest) => inner :: quoted fuel rest
      | none => quoted fuel rest
  | fuel + 1, _ :: rest => quoted fuel rest

/-- `text.strip(chars)`. -/
def stripOf (chars : List Char) (text : Text) : Text :=
  (text.dropWhile (· ∈ chars)).rdropWhile (· ∈ chars)

/-- A TXT record with its strings joined. -/
def joined (record : Text) : Text :=
  let parts := (quoted record.length record).flatMap (stripOf ['"'])
  if parts = [] then record else parts

/-- `str.rstrip(".")`. -/
def withoutDots (name : Text) : Text := name.rdropWhile (· = '.')

namespace Lookups

variable (lookups : Lookups)

/-- `txt`. -/
def txt (name : Text) : Option (List Text) := (lookups.resolveTxt name).map (List.map joined)

/-- `ptr`. -/
def ptr (ip : Address) : Option (List Text) :=
  (lookups.resolvePtr ip).map (List.map fun name => lower (withoutDots name))

/-- `addresses`. -/
def addresses (host : Text) : Option (List Address) :=
  match lookups.resolveA host, lookups.resolveAaaa host with
  | none, none => none
  | v4, v6 => some ((v4.getD []).map .v4 ++ (v6.getD []).map .v6)

/-- `dkim_key`, unanswered where it raises. -/
def dkimKey (name : Text) : Option (Option Text) :=
  (lookups.txt (withoutDots name)).map List.head?

/-- What an SPF check answered: an error is no answer, and neither is a temporary one. -/
def spfAnswer (question : Address × Text × Text) : Option (Text × Option Text) :=
  match lookups.spf question with
  | .error _ => none
  | .ok (result, explanation) =>
      if result = "temperror".toList then none else some (result, explanation)

end Lookups

/-- The second lookups agree with the first wherever those answer. -/
structure Extends (fewer more : Lookups) : Prop where
  txt : DomainLens.Extends fewer.resolveTxt more.resolveTxt
  v4 : DomainLens.Extends fewer.resolveA more.resolveA
  v6 : DomainLens.Extends fewer.resolveAaaa more.resolveAaaa
  ptr : DomainLens.Extends fewer.resolvePtr more.resolvePtr
  spf : DomainLens.Extends fewer.spfAnswer more.spfAnswer

/-! ## The message -/

/-- A DKIM result in an Authentication-Results header. -/
structure ReceiverEntry where
  result : Text
  domain : Text
  selector : Text
  b : Text

/-- What the checks read of a message: the address that handed it over, the envelope sender, the
HELO name, the From domain and the signatures, with the verdicts of the receiving system. -/
structure Message where
  raw : List UInt8
  ip : Option Address
  mailFrom : Option Text
  helo : Option Text
  fromDomain : Option Text
  dkimSignatures : List Text
  receiver : List ReceiverEntry
  hasBody : Bool
  bodyAsSent : Bool

/-- How the verification of a signature ends, a failed lookup apart. -/
inductive Outcome where
  | verified
  | refused (said : Text)
  | raised (problem : Text)

/-- What is asked of the libraries: the verification of a signature, which looks its key up by name,
and the size of an RSA key. -/
structure Libraries where
  verify : List UInt8 → Nat → Asking Text (Option Text) Outcome
  keySize : Text → Option Nat

/-- The cut at the first of a character. -/
def cut (mark : Char) (text : Text) : Text × Text :=
  (text.takeWhile (· ≠ mark), (text.dropWhile (· ≠ mark)).drop 1)

/-- `_tags`, a later tag of a name before an earlier one. -/
def tagsOf (value : Text) : List (Text × Text) :=
  ((((joinWords (split value)).splitOn ';').filter ('=' ∈ ·)).map fun part =>
    (lower (strip (cut '=' part).1), strip (cut '=' part).2)).reverse

/-- `tags.get(key, "")`. -/
def tag (tags : List (Text × Text)) (key : String) : Text := (tags.lookup key.toList).getD []

/-- `tags.get(key, other)`. -/
def tagOr (tags : List (Text × Text)) (key other : String) : Text :=
  (tags.lookup key.toList).getD other.toList

/-- `_address_domain`. -/
def addressDomain (address : Text) : Option Text :=
  let address := stripOf ['<', '>'] (strip address)
  if '@' ∈ address then some (withoutDots (lower ((address.splitOn '@').getLast?.getD [])))
  else none

/-- `_org`. -/
def org (domain : Text) : Text :=
  let domain := lower (stripOf ['.'] domain)
  if '.' ∈ domain then registrable domain else domain

/-! ## The checks -/

/-- Whether a check could be made. -/
inductive State where
  | measured
  | unmeasured
deriving DecidableEq

/-- The answer of `_spf`. -/
structure Spf where
  state : State
  result : Option Text
  domain : Option Text
  ip : Option Address
  identity : Text
  explanation : Text

/-- What the library says, or why it says nothing. -/
def Spf.answered (out : Spf) : Except Text (Text × Option Text) → Spf
  | .error problem => { out with explanation := "SPF could not be evaluated: ".toList ++ problem }
  | .ok (result, explanation) =>
      if result = "temperror".toList then { out with explanation := explanation.getD [] }
      else { out with
        state := .measured
        result := some result
        explanation := explanation.getD [] }

/-- The sender that SPF is checked for. -/
def spfIdentity (mailFrom helo : Option Text) : Option Text :=
  (mailFrom.filter (· ≠ [])).or
    ((helo.filter (· ≠ [])).map fun helo => "postmaster@".toList ++ helo)

/-- What the library is asked, or why it is not. -/
def spfQuestion (ip : Option Address) (mailFrom helo : Option Text) :
    Except Text (Address × Text × Text) :=
  let identity := spfIdentity mailFrom helo
  match ip, (identity.bind addressDomain).filter (· ≠ []), identity with
  | none, _, _ => .error "The headers name no sending address.".toList
  | some ip, some _, some identity =>
      .ok (ip, identity, (helo.filter (· ≠ [])).getD "unknown".toList)
  | some _, _, _ =>
      .error "The message has no envelope sender (Return-Path) and no HELO name.".toList

/-- `_spf`. -/
def checkSpf (lookups : Lookups) (ip : Option Address) (mailFrom helo : Option Text) : Spf :=
  let out : Spf :=
    { state := .unmeasured
      result := none
      domain := (spfIdentity mailFrom helo).bind addressDomain
      ip
      identity :=
        if (mailFrom.filter (· ≠ [])).isSome then "mail-from".toList else "helo".toList
      explanation := [] }
  match spfQuestion ip mailFrom helo with
  | .error explanation => { out with explanation }
  | .ok question => out.answered (lookups.spf question)

inductive Verdict where
  | pass
  | fail
deriving DecidableEq

/-- A signature as the test reports it. -/
structure Signature where
  domain : Text
  selector : Text
  algorithm : Text
  state : State
  result : Option Verdict
  reason : Text
  keyBits : Option Nat
  keyType : Option Text
  receiver : Bool

namespace Signature

/-- A signature nothing was found out about. -/
def ofTags (tags : List (Text × Text)) : Signature where
  domain := withoutDots (lower (tag tags "d"))
  selector := tag tags "s"
  algorithm := lower (tag tags "a")
  state := .unmeasured
  result := none
  reason := []
  keyBits := none
  keyType := none
  receiver := false

def keyName (sig : Signature) : Text :=
  sig.selector ++ "._domainkey.".toList ++ sig.domain

def judged (sig : Signature) (verdict : Verdict) (reason : Text) : Signature :=
  { sig with state := .measured, result := some verdict, reason }

def noKey (sig : Signature) : Text := "No key is published at ".toList ++ sig.keyName ++ ['.']

/-- "The key at … could not be looked up." -/
def notLookedUp (sig : Signature) : Signature :=
  { sig with
    reason := "The key at ".toList ++ sig.keyName ++ " could not be looked up.".toList }

end Signature

/-- `_key_bits`. -/
def keyBits (libraries : Libraries) (record : Text) : Option Nat × Option Text :=
  let tags := tagsOf record
  if tag tags "p" = [] then (none, some (tagOr tags "k" "rsa"))
  else if lower (tagOr tags "k" "rsa") = "ed25519".toList then (some 256, some "ed25519".toList)
  else (libraries.keySize (tag tags "p"), some "rsa".toList)

/-- `_receiver_verified`. -/
def receiverVerified (receiver : List ReceiverEntry) (sig : Signature) (b : Text) : Bool :=
  receiver.any fun entry =>
    entry.result = "pass".toList ∧ entry.domain = sig.domain ∧
      (entry.selector = [] ∨ entry.selector = sig.selector) ∧
      (entry.b = [] ∨ entry.b <+: b.filter fun char => !isSpace char)

/-- `_NOT_AS_SENT`. -/
def notAsSent : Text :=
  ("An Outlook .msg file keeps the message re-encoded, not as it arrived, so the " ++
    "signature over its body cannot be verified here. Where the receiving system recorded " ++
    "its own check (Authentication-Results), that verdict is shown.").toList

/-- `_ALTERED`. -/
def altered : Text :=
  ("The receiving system verified this signature on arrival, so the message given here " ++
    "is not the one that was signed. It was altered on the way here: copying the source from " ++
    "a web page drops spaces and line breaks. Upload the original message file " ++
    "(Gmail: Download original) to verify it.").toList

/-- Why a signature without a body is left alone. -/
def onlyHeaders : Text :=
  ("Only headers were given; the signature covers the body too. " ++
    "Upload the whole message to verify it.").toList

/-- Why a signature fails, from what the verification said. -/
def failure (sig : Signature) (said other : Text) : Text :=
  if "body hash mismatch".toList <:+: said then
    "The body was changed after signing (a footer, a re-encoding, a forward).".toList
  else if "missing public key".toList <:+: said then sig.noKey
  else other

/-- The same, as it reads an exception. -/
def exception (sig : Signature) (problem : Text) : Text :=
  if "missing public key".toList <:+: problem then sig.noKey
  else failure sig problem ("The signature could not be checked: ".toList ++ problem)

/-- What the verification of a signature comes to. -/
def concluded (sig : Signature) : Outcome → Signature
  | .verified => sig.judged .pass []
  | .refused said =>
      sig.judged .fail (failure sig said
        "The signature does not match the signed headers.".toList)
  | .raised problem => sig.judged .fail (exception sig problem)

/-- A failure the receiving system did not see says that the copy was altered. -/
def orAltered (receiver : List ReceiverEntry) (b : Text) (sig : Signature) : Signature :=
  if sig.result = some .fail ∧ ¬ "No key".toList <+: sig.reason ∧
      receiverVerified receiver sig b = true then
    { sig with state := .unmeasured, result := none, reason := altered, receiver := true }
  else sig

/-- A signature whose key was looked up. -/
def checkKey (libraries : Libraries) (lookups : Lookups) (message : Message) (index : Nat)
    (tags : List (Text × Text)) (record : Option Text) : Signature :=
  let record := record.filter (· ≠ [])
  let bits := (record.map (keyBits libraries)).getD (none, none)
  let sig := { Signature.ofTags tags with keyBits := bits.1, keyType := bits.2 }
  if !message.hasBody then
    if record = none then sig.judged .fail sig.noKey else { sig with reason := onlyHeaders }
  else if !message.bodyAsSent then
    if record = none then sig.judged .fail sig.noKey
    else { sig with
      reason := notAsSent
      receiver := receiverVerified message.receiver sig (tag tags "b") }
  else orAltered message.receiver (tag tags "b")
    (((libraries.verify message.raw index).answered lookups.dkimKey).elim sig.notLookedUp
      (concluded sig))

/-- The body of the loop of `_dkim`: `none` where it raises, on a key name outside ASCII. -/
def checkSignature (libraries : Libraries) (lookups : Lookups) (message : Message) (index : Nat)
    (value : Text) : Option Signature :=
  let tags := tagsOf value
  let sig := Signature.ofTags tags
  if sig.domain = [] ∨ sig.selector = [] then
    some (sig.judged .fail "The signature names no domain or selector.".toList)
  else if sig.keyName.any (fun char => 128 ≤ char.toNat) then none
  else some ((lookups.dkimKey sig.keyName).elim sig.notLookedUp
    (checkKey libraries lookups message index tags))

/-- `_MAX_SIGNATURES`. -/
def maxSignatures : Nat := 10

/-- The answer of `_dkim`. -/
structure Dkim where
  state : State
  signatures : List Signature

/-- The signatures with what they come to together. -/
def Dkim.ofSignatures (signatures : List Signature) : Dkim where
  state := if signatures.all fun sig => sig.state = .measured then .measured else .unmeasured
  signatures

/-- The loop of `_dkim`. -/
def checkSignatures (libraries : Libraries) (lookups : Lookups) (message : Message) :
    Nat → List Text → Option (List Signature)
  | _, [] => some []
  | index, value :: values => do
      let sig ← checkSignature libraries lookups message index value
      let signatures ← checkSignatures libraries lookups message (index + 1) values
      return sig :: signatures

/-- `_dkim`. -/
def checkDkim (libraries : Libraries) (lookups : Lookups) (message : Message) : Option Dkim :=
  (checkSignatures libraries lookups message 0 (message.dkimSignatures.take maxSignatures)).map
    Dkim.ofSignatures

/-- The loop of `_dmarc_policy`. -/
def searchPolicy (lookups : Lookups) : List Text → Option (List (Text × Text) × Option Text)
  | [] => some ([], none)
  | name :: names =>
      (lookups.txt ("_dmarc.".toList ++ name)).bind fun records =>
        match records.find? fun record =>
          "v=dmarc1".toList <+: lower (record.filter (· ≠ ' ')) with
        | some record => some (tagsOf record, some name)
        | none => searchPolicy lookups names

/-- `_dmarc_policy`. -/
def dmarcPolicy (lookups : Lookups) (fromDomain : Text) :
    Option (List (Text × Text) × Option Text) :=
  searchPolicy lookups (fromKeys [fromDomain, org fromDomain])

/-- `_aligned`. -/
def aligned (left right mode : Text) : Bool :=
  if left = [] ∨ right = [] then false
  else if mode = ['s'] then withoutDots (lower left) = withoutDots (lower right)
  else org (withoutDots (lower left)) = org (withoutDots (lower right))

/-- What DMARC comes to; no policy is a result too. -/
inductive DmarcResult where
  | pass
  | fail
  | none
deriving DecidableEq

/-- The answer of `_dmarc`. -/
structure Dmarc where
  state : State
  result : Option DmarcResult
  policy : Option Text
  policyDomain : Option Text
  spfAligned : Bool
  dkimAligned : Bool
  explanation : Text

def noDmarc (explanation : Text) : Dmarc where
  state := .unmeasured
  result := none
  policy := none
  policyDomain := none
  spfAligned := false
  dkimAligned := false
  explanation

/-- The texts with a mark between them. -/
def joinWith (mark : String) (texts : List Text) : Text := mark.toList.intercalate texts

def Spf.ok (spf : Spf) : Bool := spf.state = .measured ∧ spf.result = some "pass".toList

/-- SPF passed for a domain aligned with the From domain. -/
def Spf.alignedWith (spf : Spf) (fromDomain : Text) (tags : List (Text × Text)) : Bool :=
  spf.ok && aligned (spf.domain.getD []) fromDomain (lower (tagOr tags "aspf" "r"))

def Dkim.passing (dkim : Dkim) : List Signature :=
  dkim.signatures.filter fun sig => sig.state = .measured ∧ sig.result = some .pass

/-- A signature passed for a domain aligned with the From domain. -/
def Dkim.alignedWith (dkim : Dkim) (fromDomain : Text) (tags : List (Text × Text)) : Bool :=
  dkim.passing.any fun sig => aligned sig.domain fromDomain (lower (tagOr tags "adkim" "r"))

def dmarcReasons (spf : Spf) (dkim : Dkim) (fromDomain : Text) : Text :=
  let notAligned := ", which is not aligned with ".toList ++ fromDomain ++ ['.']
  let reasons :=
    (if spf.ok then ["SPF passed for ".toList ++ spf.domain.getD "None".toList ++ notAligned]
      else []) ++
    (if dkim.passing ≠ [] then
      ["DKIM passed for ".toList ++
        joinWith ", " ((fromKeys (dkim.passing.map Signature.domain)).insertionSort (· ≤ ·)) ++
        notAligned]
      else [])
  if reasons = [] then "Neither SPF nor DKIM passed.".toList else joinWith " " reasons

/-- `_dmarc` once the record is known. -/
def judgeDmarc (fromDomain : Text) (spf : Spf) (dkim : Dkim)
    (found : List (Text × Text) × Option Text) : Dmarc :=
  let tags := found.1
  let out := { noDmarc [] with policyDomain := found.2 }
  if tags = [] then
    { out with
      state := .measured
      result := some .none
      explanation :=
        fromDomain ++ " publishes no DMARC policy, so receivers decide on their own.".toList }
  else
    let policy :=
      if found.2 ≠ some fromDomain ∧ tag tags "sp" ≠ [] then lower (tag tags "sp")
      else lower (tagOr tags "p" "none")
    let spfAligned := spf.alignedWith fromDomain tags
    let dkimAligned := dkim.alignedWith fromDomain tags
    let out := { out with policy := some policy, spfAligned, dkimAligned }
    if spfAligned || dkimAligned then
      { out with
        state := .measured
        result := some .pass
        explanation :=
          joinWith " and " ((if spfAligned then ["SPF".toList] else []) ++
            (if dkimAligned then ["DKIM".toList] else [])) ++
          " passed for a domain aligned with ".toList ++ fromDomain ++ ['.'] }
    else if spf.state ≠ .measured ∨ dkim.state ≠ .measured then
      { out with
        explanation :=
          ("Not every part could be checked, and the parts that could " ++
            "did not pass aligned.").toList }
    else
      { out with
        state := .measured
        result := some .fail
        explanation := dmarcReasons spf dkim fromDomain }

/-- `_dmarc`. -/
def checkDmarc (lookups : Lookups) (fromDomain : Option Text) (spf : Spf) (dkim : Dkim) : Dmarc :=
  match fromDomain.filter (· ≠ []) with
  | none => noDmarc "The message does not have exactly one From address.".toList
  | some fromDomain =>
      match dmarcPolicy lookups fromDomain with
      | none => noDmarc "The DMARC record could not be looked up.".toList
      | some found => judgeDmarc fromDomain spf dkim found

/-- What `_server` says of the reverse DNS. -/
structure Server where
  ip : Option Address
  ptr : Option (List Text)
  ptrState : State
  fcrdns : Option Bool
deriving DecidableEq

def followed (names : List Text) : List Text := names.take 3

/-- The body of the loop over the names: one that cannot be looked up is passed over. -/
def follow (lookups : Lookups) (ip : Address) (confirmed : Option Bool) (name : Text) :
    Option Bool :=
  match lookups.addresses name with
  | none => confirmed
  | some back => some (confirmed.getD false || back.contains ip)

def confirmed (lookups : Lookups) (ip : Address) (names : List Text) : Option Bool :=
  names.foldl (follow lookups ip) none

/-- The part of `_server` on reverse DNS. -/
def checkServer (lookups : Lookups) (ip : Option Address) : Server :=
  match ip.bind lookups.ptr with
  | none => { ip, ptr := none, ptrState := .unmeasured, fcrdns := none }
  | some [] => { ip, ptr := some [], ptrState := .measured, fcrdns := none }
  | some names =>
      { ip
        ptr := some names
        ptrState := .measured
        fcrdns := ip.bind fun ip => confirmed lookups ip (followed names) }

structure Analysis where
  spf : Spf
  dkim : Dkim
  dmarc : Dmarc
  server : Server

/-- `analyse`, as far as it rests on lookups: `none` where it raises. -/
def analyse (libraries : Libraries) (lookups : Lookups) (message : Message) : Option Analysis :=
  let spf := checkSpf lookups message.ip message.mailFrom message.helo
  (checkDkim libraries lookups message).map fun dkim =>
    { spf
      dkim
      dmarc := checkDmarc lookups message.fromDomain spf dkim
      server := checkServer lookups message.ip }

end MailTest
end DomainLens
