import DomainLens.Library.Xml

/-!
# Login assertions of SAML

A response is accepted when its signature verifies, its status says success, the clock lies inside
the window of every `Conditions` element of the signed element, and the audiences that element names
hold the configured one.  The profile is read from the signed element alone.
-/

namespace DomainLens
namespace SamlSp

open Python

abbrev Bytes := List UInt8

/-! ## What the code calls -/

/-- A date and time: its clock reading in microseconds, and the offset of its time zone if it has
one. -/
structure Moment where
  clock : Int
  utcoffset : Option Int

/-- The codecs, the XML parser, `signxml` and `datetime.fromisoformat`; an error is the text of the
exception.  `verify` gets the document and the certificate, and returns `signed_xml` as it is after
it was written out and read again. -/
structure Services where
  b64decode : Text → Except Text Bytes
  decodeUtf8 : Bytes → Except Text Text
  decompress : Bytes → Except Text Bytes
  fromstring : Text → Except Text Xml
  haveSignxml : Bool
  verify : Text → Text → Except Text (Option Xml)
  fromisoformat : Text → Except Text Moment

/-- What `parse_saml_response` reads of the configuration. -/
structure Config where
  idpCert : Option Text
  allowUnsigned : Bool
  audience : Option Text

/-- A `SamlValidationError`, the `ValueError` of the profile, or an exception of a called
service. -/
inductive Refusal where
  | samlValidation (message : Text)
  | value (message : Text)
  | raised (message : Text)
deriving DecidableEq

structure Profile where
  id : Text
  email : Text
  name : Text
  provider : Text
  sub : Text
deriving DecidableEq

def called {Result : Type*} : Except Text Result → Except Refusal Result :=
  Except.mapError .raised

/-- A text that is there and not empty. -/
def truthy (text : Option Text) : Option Text := text.filter (· ≠ [])

/-! ## Reading elements -/

/-- `_local`. -/
def localName (tag : Text) : Text :=
  if '}' ∈ tag then (tag.reverse.takeWhile (· ≠ '}')).reverse else tag

def nonblank (text : Option Text) : Option Text := truthy (some (strip (text.getD [])))

/-- `_find_text`. -/
def findText (root : Xml) (names : List Text) : Option Text :=
  root.iter.findSome? fun element =>
    if localName element.tag ∈ names then nonblank element.text else none

/-- The name and the values of an `Attribute` element that has both. -/
def attributeOf (element : Xml) : Option (Text × List Text) :=
  if localName element.tag = "Attribute".toList then
    let name := ((truthy (element.attrib.lookup "Name".toList)).or
      (element.attrib.lookup "FriendlyName".toList)).getD []
    let values := element.children.filterMap fun child =>
      if localName child.tag = "AttributeValue".toList then nonblank child.text else none
    if name ≠ [] ∧ values ≠ [] then some (name, values) else none
  else none

/-- `_attr_values`: of the attributes of one name the last one counts. -/
def attrValues (root : Xml) (key : Text) : Option (List Text) :=
  (root.iter.filterMap attributeOf).reverse.lookup key

/-- `_assert_status_success`. -/
def assertStatusSuccess (root : Xml) : Except Refusal Unit :=
  let isStatusCode := fun element : Xml => localName element.tag = "StatusCode".toList
  let status := (root.iter.find? isStatusCode).bind fun element =>
    element.attrib.lookup "Value".toList
  match truthy status with
  | some status =>
      if "Success".toList <:+: status then .ok ()
      else .error (.samlValidation ("SAML status not success: ".toList ++ status))
  | none => .ok ()

def chunksOf (size : Nat) : Nat → Text → List Text
  | 0, _ => []
  | _, [] => []
  | fuel + 1, text => text.take size :: chunksOf size fuel (text.drop size)

/-- `_normalize_cert`. -/
def normalizeCert (cert : Text) : Text :=
  let cert := strip cert
  if "BEGIN CERTIFICATE".toList <:+: cert then cert
  else
    let body := cert.filter fun char => !isSpace char
    let lines := ['\n'].intercalate (chunksOf 64 body.length body)
    "-----BEGIN CERTIFICATE-----\n".toList ++ lines ++ "\n-----END CERTIFICATE-----\n".toList

/-! ## Conditions -/

/-- `_parse_instant`, in microseconds. -/
def parseInstant (services : Services) (value : Text) : Except Refusal Int :=
  let replaced := (strip value).flatMap fun char => if char = 'Z' then "+00:00".toList else [char]
  (called (services.fromisoformat replaced)).map fun moment =>
    moment.clock - moment.utcoffset.getD 0

/-- One bound of a window, refused when the clock is on the wrong side of it. -/
def checkBound (services : Services) (bound : Option Text) (wrong : Int → Bool) (message : String) :
    Except Refusal Unit :=
  match truthy bound with
  | some value => do
      let instant ← parseInstant services value
      if wrong instant then .error (.samlValidation message.toList) else .ok ()
  | none => .ok ()

/-- The window of one element of `_check_conditions`. -/
def checkWindow (services : Services) (now : Int) (element : Xml) : Except Refusal Unit :=
  if localName element.tag ≠ "Conditions".toList then .ok ()
  else do
    checkBound services (element.attrib.lookup "NotBefore".toList) (fun instant => now < instant)
      "SAML assertion not yet valid (NotBefore)"
    checkBound services (element.attrib.lookup "NotOnOrAfter".toList) (fun instant => now ≥ instant)
      "SAML assertion expired (NotOnOrAfter)"

def audiences (root : Xml) : List Text :=
  root.iter.filterMap fun element =>
    if localName element.tag = "Audience".toList then nonblank element.text else none

/-- `_check_conditions`. -/
def checkConditions (services : Services) (now : Int) (root : Xml)
    (expectedAudience : Option Text) : Except Refusal Unit := do
  forM root.iter (checkWindow services now)
  match truthy expectedAudience with
  | some expected =>
      if audiences root ≠ [] ∧ expected ∉ audiences root then
        .error (.samlValidation "SAML audience mismatch".toList)
      else .ok ()
  | none => .ok ()

/-! ## The response -/

def emailKeys : List Text :=
  ["http://schemas.xmlsoap.org/ws/2005/05/identity/claims/emailaddress".toList,
    "email".toList,
    "mail".toList,
    "http://schemas.xmlsoap.org/ws/2005/05/identity/claims/name".toList,
    "http://schemas.microsoft.com/identity/claims/emailaddress".toList]

def displayKeys : List Text :=
  ["http://schemas.microsoft.com/identity/claims/displayname".toList,
    "displayName".toList,
    "http://schemas.xmlsoap.org/ws/2005/05/identity/claims/name".toList,
    "givenname".toList]

/-- The first value of the first key that has one. -/
def firstOf (values : Text → Option (List Text)) (keys : List Text) : Option Text :=
  keys.findSome? fun key => (values key).bind List.head?

def nameId (root : Xml) : Option Text := findText root ["NameID".toList]

/-- The address a login goes by: the first e-mail claim, or else the `NameID`. -/
def claimedEmail (root : Xml) : Option Text :=
  (firstOf (attrValues root) emailKeys).or (nameId root)

def claimedName (root : Xml) : Option Text := firstOf (attrValues root) displayKeys

def missingEmail : Refusal := .value "SAML response missing email NameID/claim".toList

/-- The login profile an element holds. -/
def profileOf (root : Xml) : Except Refusal Profile :=
  match claimedEmail root with
  | none => .error missingEmail
  | some claimed =>
      if '@' ∉ claimed then .error missingEmail
      else
        let email := lower (strip claimed)
        .ok
          { id := (nameId root).getD email
            email := email
            name := (claimedName root).getD (email.takeWhile (· ≠ '@'))
            provider := "saml".toList
            sub := (nameId root).getD email }

/-- The document of a response: plain, or else compressed. -/
def documentOf (services : Services) (response : Text) : Except Refusal Text := do
  let raw ← called (services.b64decode response)
  match services.decodeUtf8 raw with
  | .ok document => .ok document
  | .error _ => called (services.decompress raw >>= services.decodeUtf8)

/-- The element the profile is read from, once its signature and the status are checked. -/
def trustedRoot (services : Services) (config : Config) (document : Text) :
    Except Refusal Xml :=
  match truthy config.idpCert with
  | some cert =>
      if !services.haveSignxml then
        .error (.samlValidation
          "signxml is required to verify SAML signatures but is not installed".toList)
      else
        match services.verify document (normalizeCert cert) with
        | .error exc =>
            .error (.samlValidation ("SAML signature verification failed: ".toList ++ exc))
        | .ok verified => do
            let root ← match verified with
              | some signed => .ok signed
              | none => called (services.fromstring document)
            let outer ← called (services.fromstring document)
            assertStatusSuccess outer
            return root
  | none =>
      if config.allowUnsigned then do
        let root ← called (services.fromstring document)
        assertStatusSuccess root
        return root
      else
        .error (.samlValidation ("SAML is not configured securely: set an IdP certificate "
          ++ "(idp_cert) to verify signatures, or explicitly enable allow_unsigned.").toList)

/-- `parse_saml_response`. -/
def parseSamlResponse (services : Services) (config : Config) (now : Int) (response : Text) :
    Except Refusal Profile := do
  let document ← documentOf services response
  let root ← trustedRoot services config document
  checkConditions services now root config.audience
  profileOf root

/-! ## What an accepted response shows -/

/-- Some element inside the root has that name, and that text once its blanks are stripped. -/
def Holds (root : Xml) (name text : Text) : Prop :=
  ∃ element, Xml.Inside element root ∧ localName element.tag = name ∧
    strip (element.text.getD []) = text ∧ text ≠ []

/-- The clock lies inside the window of an element; a bound that is missing or empty is none. -/
structure InWindow (services : Services) (now : Int) (element : Xml) : Prop where
  begun : ∀ value, element.attrib.lookup "NotBefore".toList = some value → value ≠ [] →
    ∃ instant, parseInstant services value = .ok instant ∧ instant ≤ now
  unexpired : ∀ value, element.attrib.lookup "NotOnOrAfter".toList = some value → value ≠ [] →
    ∃ instant, parseInstant services value = .ok instant ∧ now < instant

/-- The identity of a profile is the text of a `NameID` or an `AttributeValue` inside the root, and
so are its other fields, where they do not fall back on the identity. -/
structure TakenFrom (root : Xml) (profile : Profile) : Prop where
  email : ∃ identity, profile.email = lower (strip identity) ∧
    (Holds root "NameID".toList identity ∨ Holds root "AttributeValue".toList identity)
  id : Holds root "NameID".toList profile.id ∨ profile.id = profile.email
  sub : profile.sub = profile.id
  name : Holds root "AttributeValue".toList profile.name ∨
    profile.name = profile.email.takeWhile (· ≠ '@')

/-- A correct verifier returns an element, and one that the signature covers. -/
structure VerifierCorrect (services : Services) (covers : Text → Text → Xml → Prop) : Prop where
  returns : ∀ document cert, services.verify document cert ≠ .ok none
  covered : ∀ document cert signed,
    services.verify document cert = .ok (some signed) → covers document cert signed

variable {services : Services} {config : Config} {now : Int}

theorem bind_eq_ok {Error Value Result : Type} {source : Except Error Value}
    {continuation : Value → Except Error Result} {result : Result} :
    source >>= continuation = .ok result ↔
      ∃ value, source = .ok value ∧ continuation value = .ok result := by
  cases source with
  | error error => simp [bind, Except.bind]
  | ok value => simp [bind, Except.bind]

theorem seq_eq_ok {Error Result : Type} {check : Except Error Unit}
    {continuation : Unit → Except Error Result} {result : Result} :
    check >>= continuation = .ok result ↔ check = .ok () ∧ continuation () = .ok result := by
  rw [bind_eq_ok]
  exact ⟨fun ⟨_, passes⟩ => passes, fun passes => ⟨(), passes⟩⟩

theorem forM_eq_ok {Error Value : Type} {check : Value → Except Error Unit} {values : List Value} :
    forM values check = .ok () ↔ ∀ value ∈ values, check value = .ok () := by
  induction values with
  | nil => simp [pure, Except.pure]
  | cons value values induction =>
      rw [List.forM_cons, seq_eq_ok, List.forall_mem_cons, induction]

@[simp] theorem truthy_eq_some {text : Option Text} {value : Text} :
    truthy text = some value ↔ text = some value ∧ value ≠ [] := by
  simp [truthy, Option.filter_eq_some_iff]

theorem nonblank_eq_some {text : Option Text} {value : Text} :
    nonblank text = some value ↔ strip (text.getD []) = value ∧ value ≠ [] := by
  simp [nonblank]

theorem mem_audiences {root : Xml} {audience : Text} :
    audience ∈ audiences root ↔ Holds root "Audience".toList audience := by
  unfold audiences Holds
  rw [List.mem_filterMap]
  refine exists_congr fun element => ?_
  rw [Xml.mem_iter, Option.ite_none_right_eq_some, nonblank_eq_some]

theorem checkBound_eq_ok {bound : Option Text} {wrong : Int → Bool} {message : String} :
    checkBound services bound wrong message = .ok () ↔
      ∀ value, bound = some value → value ≠ [] →
        ∃ instant, parseInstant services value = .ok instant ∧ wrong instant = false := by
  unfold checkBound
  cases present : truthy bound with
  | none =>
      refine iff_of_true rfl fun value held nonempty => ?_
      rw [truthy_eq_some.mpr ⟨held, nonempty⟩] at present
      cases present
  | some value =>
      obtain ⟨rfl, nonempty⟩ := truthy_eq_some.mp present
      have same : ∀ text, some value = some text ↔ text = value := by simp [eq_comm]
      simp only [bind_eq_ok, same]
      constructor
      · rintro ⟨instant, read, passes⟩ text rfl -
        refine ⟨instant, read, ?_⟩
        cases side : wrong instant with
        | false => rfl
        | true => simp [side] at passes
      · intro holds
        obtain ⟨instant, read, side⟩ := holds value rfl nonempty
        exact ⟨instant, read, by simp [side]⟩

theorem checkWindow_eq_ok {element : Xml} :
    checkWindow services now element = .ok () ↔
      (localName element.tag = "Conditions".toList → InWindow services now element) := by
  unfold checkWindow
  by_cases conditions : localName element.tag = "Conditions".toList
  · rw [if_neg (not_not.mpr conditions), seq_eq_ok]
    simp only [checkBound_eq_ok, decide_eq_false_iff_not, Int.not_lt, Int.not_le, ge_iff_le]
    constructor
    · rintro ⟨begun, unexpired⟩ -
      exact ⟨begun, unexpired⟩
    · intro window
      exact ⟨(window conditions).begun, (window conditions).unexpired⟩
  · rw [if_pos conditions]
    exact iff_of_true rfl fun named => absurd named conditions

theorem checkConditions_eq_ok {root : Xml} {expectedAudience : Option Text} :
    checkConditions services now root expectedAudience = .ok () ↔
      (∀ conditions, Xml.Inside conditions root →
        localName conditions.tag = "Conditions".toList → InWindow services now conditions) ∧
      (∀ expected, expectedAudience = some expected → expected ≠ [] → audiences root ≠ [] →
        Holds root "Audience".toList expected) := by
  unfold checkConditions
  simp only [seq_eq_ok, forM_eq_ok, checkWindow_eq_ok, Xml.mem_iter, ← mem_audiences]
  refine and_congr_right fun _ => ⟨fun listed => ?_, fun listed => ?_⟩
  · intro expected held nonempty named
    rw [truthy_eq_some.mpr ⟨held, nonempty⟩] at listed
    by_contra missing
    simp [named, missing] at listed
  · cases present : truthy expectedAudience with
    | none => rfl
    | some expected =>
        obtain ⟨held, nonempty⟩ := truthy_eq_some.mp present
        exact if_neg fun ⟨named, missing⟩ =>
          missing (listed expected held nonempty named)

theorem holds_of_findText {root : Xml} {name text : Text}
    (found : findText root [name] = some text) : Holds root name text := by
  obtain ⟨element, member, read⟩ := List.exists_of_findSome?_eq_some found
  obtain ⟨named, read⟩ := Option.ite_none_right_eq_some.mp read
  obtain ⟨stripped, nonempty⟩ := nonblank_eq_some.mp read
  exact ⟨element, Xml.mem_iter.mp member, List.mem_singleton.mp named, stripped, nonempty⟩

theorem holds_of_attrValues {root : Xml} {key text : Text} {values : List Text}
    (held : attrValues root key = some values) (member : text ∈ values) :
    Holds root "AttributeValue".toList text := by
  obtain ⟨before, after, written, -⟩ := List.lookup_eq_some_iff.mp held
  have isWritten : (key, values) ∈ root.iter.filterMap attributeOf :=
    List.mem_reverse.mp (written ▸ by simp)
  obtain ⟨element, inside, isAttribute⟩ := List.mem_filterMap.mp isWritten
  unfold attributeOf at isAttribute
  obtain ⟨-, isAttribute⟩ := Option.ite_none_right_eq_some.mp isAttribute
  obtain ⟨-, same⟩ := Option.ite_none_right_eq_some.mp isAttribute
  obtain ⟨-, rfl⟩ := Prod.mk.inj (Option.some.inj same)
  obtain ⟨child, isChild, read⟩ := List.mem_filterMap.mp member
  obtain ⟨named, read⟩ := Option.ite_none_right_eq_some.mp read
  obtain ⟨stripped, nonempty⟩ := nonblank_eq_some.mp read
  exact ⟨child, (Xml.Inside.deeper isChild (.self child)).trans (Xml.mem_iter.mp inside), named,
    stripped, nonempty⟩

theorem holds_of_firstOf {root : Xml} {keys : List Text} {text : Text}
    (found : firstOf (attrValues root) keys = some text) :
    Holds root "AttributeValue".toList text := by
  obtain ⟨key, -, read⟩ := List.exists_of_findSome?_eq_some found
  obtain ⟨values, held, first⟩ := Option.bind_eq_some_iff.mp read
  exact holds_of_attrValues held (List.mem_of_mem_head? first)

/-- A profile holds nothing that is not inside the element it was read from. -/
theorem takenFrom_of_profileOf {root : Xml} {profile : Profile}
    (read : profileOf root = .ok profile) : TakenFrom root profile := by
  unfold profileOf at read
  cases claim : claimedEmail root with
  | none => simp only [claim, reduceCtorEq] at read
  | some claimed =>
      have isHeld :
          Holds root "NameID".toList claimed ∨ Holds root "AttributeValue".toList claimed := by
        rcases Option.or_eq_some_iff.mp claim with isAttribute | ⟨-, named⟩
        · exact .inr (holds_of_firstOf isAttribute)
        · exact .inl (holds_of_findText named)
      simp only [claim] at read
      split at read
      · cases read
      cases read
      refine { email := ⟨claimed, rfl, isHeld⟩, id := ?_, sub := rfl, name := ?_ }
      · cases named : nameId root with
        | none => exact .inr rfl
        | some text => exact .inl (holds_of_findText named)
      · cases named : claimedName root with
        | none => exact .inr rfl
        | some text => exact .inl (holds_of_firstOf named)

/-- With a certificate configured the profile is read from an element the signature covers. -/
theorem covers_of_trustedRoot {covers : Text → Text → Xml → Prop}
    (correct : VerifierCorrect services covers) {certificate document : Text} {root : Xml}
    (configured : config.idpCert = some certificate) (nonempty : certificate ≠ [])
    (trusted : trustedRoot services config document = .ok root) :
    covers document (normalizeCert certificate) root := by
  unfold trustedRoot at trusted
  rw [truthy_eq_some.mpr ⟨configured, nonempty⟩] at trusted
  dsimp only at trusted
  split at trusted
  · cases trusted
  cases answer : services.verify document (normalizeCert certificate) with
  | error exc => simp only [answer, reduceCtorEq] at trusted
  | ok verified =>
      cases verified with
      | none => exact absurd answer (correct.returns _ _)
      | some signed =>
          simp only [answer, bind_eq_ok] at trusted
          obtain ⟨_, isSigned, outer, -, _, -, isRoot⟩ := trusted
          cases isSigned
          cases isRoot
          exact correct.covered _ _ _ answer

/-- Services that know one document, which the identity provider has signed as a whole. -/
def sampleServices (response document : Text) (root : Xml) : Services where
  b64decode sent :=
    if sent = response then .ok (document.map fun char => UInt8.ofNat char.toNat)
    else .error "Incorrect padding".toList
  decodeUtf8 bytes := .ok (bytes.map fun byte => Char.ofNat byte.toNat)
  decompress _ := .error "Error -3 while decompressing data".toList
  fromstring read := if read = document then .ok root else .error "syntax error".toList
  haveSignxml := true
  verify read cert :=
    if read = document ∧ cert = normalizeCert "TUlJQg==".toList then .ok (some root)
    else .error "Signature verification failed".toList
  fromisoformat value :=
    if value = "2099-01-01T00:00:00+00:00".toList then
      .ok { clock := 4070908800000000, utcoffset := some 0 }
    else .error "Invalid isoformat string".toList

def sampleConfig : Config where
  idpCert := some "TUlJQg==".toList
  allowUnsigned := false
  audience := some "domainlens".toList

def sampleNow : Int := 1767225600000000

def sampleProfile : Profile where
  id := "sam@contoso.com".toList
  email := "sam@contoso.com".toList
  name := "sam".toList
  provider := "saml".toList
  sub := "sam@contoso.com".toList

def assertionWith (conditions : Xml) : Xml :=
  .element "Assertion".toList [] none
    [.element "NameID".toList [] (some "sam@contoso.com".toList) [], conditions]

def sampleCovers (document : Text) (root : Xml) (read cert : Text) (signed : Xml) : Prop :=
  read = document ∧ cert = normalizeCert "TUlJQg==".toList ∧ signed = root

theorem sample_correct (response document : Text) (root : Xml) :
    VerifierCorrect (sampleServices response document root) (sampleCovers document root) where
  returns read cert none := by
    simp only [sampleServices] at none
    split at none <;> cases none
  covered read cert signed answer := by
    simp only [sampleServices] at answer
    split at answer
    · rename_i known
      cases answer
      exact ⟨known.1, known.2, rfl⟩
    · cases answer

def restrictedDocument : Text :=
  ("<Assertion><NameID>sam@contoso.com</NameID><Conditions><AudienceRestriction><Audienc"
    ++ "e>domainlens</Audience></AudienceRestriction></Conditions></Assertion>").toList

def restrictedResponse : Text :=
  ("PEFzc2VydGlvbj48TmFtZUlEPnNhbUBjb250b3NvLmNvbTwvTmFtZUlEPjxDb25kaXRpb25zPjxBdWRpZW5j"
    ++ "ZVJlc3RyaWN0aW9uPjxBdWRpZW5jZT5kb21haW5sZW5zPC9BdWRpZW5jZT48L0F1ZGllbmNlUmVzdHJpY3Rp"
    ++ "b24+PC9Db25kaXRpb25zPjwvQXNzZXJ0aW9uPg==").toList

def sampleRestriction : Xml :=
  .element "AudienceRestriction".toList [] none
    [.element "Audience".toList [] (some "domainlens".toList) []]

def restrictedRoot : Xml :=
  assertionWith (.element "Conditions".toList [] none [sampleRestriction])

def unrestrictedDocument : Text :=
  ("<Assertion><NameID>sam@contoso.com</NameID><Conditions NotOnOrAfter=\"2099-01-01T00:0"
    ++ "0:00Z\"/></Assertion>").toList

def unrestrictedResponse : Text :=
  ("PEFzc2VydGlvbj48TmFtZUlEPnNhbUBjb250b3NvLmNvbTwvTmFtZUlEPjxDb25kaXRpb25zIE5vdE9uT3JB"
    ++ "ZnRlcj0iMjA5OS0wMS0wMVQwMDowMDowMFoiLz48L0Fzc2VydGlvbj4=").toList

def unrestrictedRoot : Xml :=
  assertionWith (.element "Conditions".toList
    [("NotOnOrAfter".toList, "2099-01-01T00:00:00Z".toList)] none [])

private theorem toList_literals (front back : Text) :
    (String.ofList front ++ String.ofList back).toList = front ++ back := by
  rw [String.toList_append, String.toList_ofList, String.toList_ofList]

set_option maxRecDepth 4000 in
private theorem restricted_accepted :
    parseSamlResponse (sampleServices restrictedResponse restrictedDocument restrictedRoot)
      sampleConfig sampleNow restrictedResponse = .ok sampleProfile := by
  -- the texts are spelt out first: the kernel is slow to take a long literal apart
  have document : restrictedDocument = _ ++ _ := toList_literals _ _
  have response : restrictedResponse = (_ ++ _) ++ _ :=
    String.toList_append.trans (congrArg₂ (· ++ ·) (toList_literals _ _) String.toList_ofList)
  rw [document, response]
  decide +kernel

set_option maxRecDepth 4000 in
private theorem unrestricted_accepted :
    parseSamlResponse (sampleServices unrestrictedResponse unrestrictedDocument unrestrictedRoot)
      sampleConfig sampleNow unrestrictedResponse = .ok sampleProfile := by
  have document : unrestrictedDocument = _ ++ _ := toList_literals _ _
  have response : unrestrictedResponse = _ ++ _ := toList_literals _ _
  rw [document, response]
  decide +kernel

end SamlSp
end DomainLens
