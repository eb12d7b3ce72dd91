import DomainLens.DomainPortfolio.Registry
import DomainLens.Python.IpAddress

/-!
# Dead delegations

The name servers of a domain are read from the servers of its top-level domain and asked for the
domain themselves.  Where none of them answers with authority the domain resolves nowhere.  Only some
of the servers are asked, at some of their addresses, and an address that could not be looked up
counts as one that is not there.
-/

namespace DomainLens
namespace Delegation

open Python

/-! ## Messages -/

inductive Family where
  | a
  | aaaa
deriving DecidableEq

/-- The records of a set, as far as they are read. -/
inductive Records where
  | ns (targets : List Text)
  | address (addresses : List IpAddress)
  | soa
  | other

structure RRset where
  name : Text
  records : Records

structure Message where
  rcode : Nat
  authoritative : Bool
  answer : List RRset
  authority : List RRset
  additional : List RRset

/-- What a lookup through the resolver comes to: records, the answer that there are none, or no answer.
The last two are both a `DNSException`. -/
inductive Lookup (Record : Type) where
  | found (records : List Record)
  | absent
  | failed

/-- The records of a lookup, none where it raised. -/
def Lookup.records {Record : Type} : Lookup Record → List Record
  | .found records => records
  | .absent | .failed => []

/-- The resolver, and what the servers reply to the questions for the `NS` and for the `SOA` records
of a domain, if they reply. -/
structure World where
  validName : Text → Bool
  nameServers : Text → Lookup Text
  lookup : Text → Family → Lookup IpAddress
  referral : Text → IpAddress → Option Message
  soa : Text → IpAddress → Option Message

/-! ## The verdict -/

variable (world : World)

def normalized (domain : Text) : Text := lower ((strip domain).rdropWhile (· = '.'))

/-- The top-level domain, with its dot. -/
def tldOf (domain : Text) : Text := domain.rtakeWhile (· ≠ '.') ++ ['.']

/-- `addresses`. -/
def addresses (host : Text) : List IpAddress :=
  (world.lookup host .a).records ++ (world.lookup host .aaaa).records

/-- `make_query` does not take the name. -/
inductive Failure where
  | badName

/-- What the first server of the parent that replies says, at most three being asked at one address
each. -/
def parentReferral (domain : Text) : Except Failure (Option Message) :=
  match world.nameServers (tldOf domain) with
  | .absent | .failed => .ok none
  | .found parentHosts =>
      if world.validName domain then
        .ok ((parentHosts.take 3).findSome? fun host =>
          ((addresses world host).take 1).findSome? (world.referral domain))
      else .error .badName

def RRset.targets (rrset : RRset) : List Text :=
  match rrset.records with
  | .ns targets => targets
  | _ => []

/-- The name servers the parent delegates to. -/
def delegated (referral : Message) : List Text :=
  (referral.authority ++ referral.answer).flatMap RRset.targets

def RRset.addresses (rrset : RRset) : List IpAddress :=
  match rrset.records with
  | .address addresses => addresses
  | _ => []

/-- The addresses the parent tells of a server. -/
def glue (referral : Message) (host : Text) : List IpAddress :=
  (referral.additional.filter (·.name = host)).flatMap RRset.addresses

/-- The addresses a server is asked at, in order. -/
def candidates (referral : Message) (host : Text) : List IpAddress :=
  if glue referral host = [] then addresses world host else glue referral host

def RRset.isSoa (rrset : RRset) : Bool :=
  match rrset.records with
  | .soa => true
  | _ => false

/-- An answer for the domain with authority: `NOERROR`, the flag `AA` and a `SOA` record. -/
def Message.answersSoa (response : Message) : Bool :=
  response.rcode = 0 && response.authoritative && response.answer.any RRset.isSoa

/-- The server at an address answers for a domain with authority. -/
def authoritative (domain : Text) (address : IpAddress) : Bool :=
  (world.soa domain address).any Message.answersSoa

/-- `nameservers_answer`. -/
def nameserversAnswer (domain : Text) : Except Failure (Option Bool) :=
  let domain := normalized domain
  (parentReferral world domain).map fun referral =>
    match referral with
    | none => none
    | some referral =>
        if delegated referral = [] then none
        else some (((delegated referral).take 4).any fun host =>
          ((candidates world referral host).take 2).any (authoritative world domain))

theorem nameserversAnswer_eq_some {domain : Text} {verdict : Bool} :
    nameserversAnswer world domain = .ok (some verdict) ↔
      ∃ referral, parentReferral world (normalized domain) = .ok (some referral) ∧
        delegated referral ≠ [] ∧
        (((delegated referral).take 4).any fun host => ((candidates world referral host).take 2).any
          (authoritative world (normalized domain))) = verdict := by
  rw [nameserversAnswer]
  cases parentReferral world (normalized domain) with
  | error failure => exact iff_of_false (by rintro ⟨⟩) (by rintro ⟨referral, ⟨⟩, -⟩)
  | ok told =>
      cases told with
      | none => exact iff_of_false (by rintro ⟨⟩) (by rintro ⟨referral, ⟨⟩, -⟩)
      | some referral =>
          by_cases none : delegated referral = []
          · simp [Except.map, none]
          · simp [Except.map, none]

/-! ## What is asked and what is left out -/

def asked (referral : Message) : List IpAddress :=
  ((delegated referral).take 4).flatMap fun host => (candidates world referral host).take 2

/-- The addresses of a server, those the parent tells and those the resolver finds. -/
def allAddresses (referral : Message) (host : Text) : List IpAddress :=
  glue referral host ++ addresses world host

/-- The addresses that are not asked: those behind the second one of a server, those the parent does
not tell of a server of which it tells others, and those of the servers behind the fourth. -/
def leftOut (referral : Message) : List IpAddress :=
  (((delegated referral).take 4).flatMap fun host =>
    (candidates world referral host).drop 2 ++
      if glue referral host = [] then [] else addresses world host) ++
  ((delegated referral).drop 4).flatMap (allAddresses world referral)

private theorem mem_allAddresses {referral : Message} {host : Text} {address : IpAddress} :
    address ∈ allAddresses world referral host ↔
      address ∈ (candidates world referral host).take 2 ∨
        address ∈ (candidates world referral host).drop 2 ++
          if glue referral host = [] then [] else addresses world host := by
  rw [List.mem_append, ← or_assoc, ← List.mem_append, List.take_append_drop, allAddresses, candidates]
  split_ifs with told
  · simp [told]
  · exact List.mem_append

theorem exists_mem_allAddresses {referral : Message} {address : IpAddress} :
    (∃ host ∈ delegated referral, address ∈ allAddresses world referral host) ↔
      address ∈ asked world referral ∨ address ∈ leftOut world referral := by
  have split : (∃ host ∈ delegated referral, address ∈ allAddresses world referral host) ↔
      (∃ host ∈ (delegated referral).take 4, address ∈ allAddresses world referral host) ∨
        ∃ host ∈ (delegated referral).drop 4, address ∈ allAddresses world referral host := by
    conv_lhs => rw [← List.take_append_drop 4 (delegated referral)]
    simp only [List.mem_append, or_and_right, exists_or]
  rw [split, asked, leftOut, List.mem_append, List.mem_flatMap, List.mem_flatMap, List.mem_flatMap,
    ← or_assoc]
  refine or_congr_left ?_
  simp only [mem_allAddresses, and_or_left, exists_or]

/-- The addresses of a server are taken to be none because they could not be looked up. -/
def Unread (referral : Message) (host : Text) : Prop :=
  glue referral host = [] ∧ ∃ family, world.lookup host family = .failed

/-! ## The verdict and the servers -/

/-- A domain is called dead only where none of its servers answers at any of its addresses and no
lookup that was made for them failed, and alive only where one of them answers. -/
structure IsTrue (domain : Text) : Prop where
  dead : nameserversAnswer world domain = .ok (some false) →
    ∃ referral, parentReferral world (normalized domain) = .ok (some referral) ∧
      (∀ host ∈ delegated referral, ∀ address ∈ allAddresses world referral host,
        authoritative world (normalized domain) address = false) ∧
      ∀ host ∈ (delegated referral).take 4, ¬ Unread world referral host
  alive : nameserversAnswer world domain = .ok (some true) →
    ∃ referral, parentReferral world (normalized domain) = .ok (some referral) ∧
      ∃ host ∈ delegated referral, ∃ address ∈ allAddresses world referral host,
        authoritative world (normalized domain) address = true

/-- What is left out decides nothing: an address that is asked answers, or none that is left out
does and every lookup was answered. -/
def Covered (domain : Text) : Prop :=
  ∀ referral, parentReferral world (normalized domain) = .ok (some referral) →
    (∃ address ∈ asked world referral, authoritative world (normalized domain) address = true) ∨
      (∀ address ∈ leftOut world referral,
        authoritative world (normalized domain) address = false) ∧
      ∀ host ∈ (delegated referral).take 4, ¬ Unread world referral host

private theorem any_asked {domain : Text} {referral : Message} :
    (((delegated referral).take 4).any fun host => ((candidates world referral host).take 2).any
        (authoritative world domain)) = true ↔
      ∃ address ∈ asked world referral, authoritative world domain address = true := by
  simp only [asked, List.any_eq_true, List.mem_flatMap]
  constructor
  · rintro ⟨host, isHost, address, member, answers⟩
    exact ⟨address, ⟨host, isHost, member⟩, answers⟩
  · rintro ⟨address, ⟨host, isHost, member⟩, answers⟩
    exact ⟨host, isHost, address, member, answers⟩

theorem alive_of_nameserversAnswer {domain : Text}
    (verdict : nameserversAnswer world domain = .ok (some true)) :
    ∃ referral, parentReferral world (normalized domain) = .ok (some referral) ∧
      ∃ host ∈ delegated referral, ∃ address ∈ allAddresses world referral host,
        authoritative world (normalized domain) address = true := by
  obtain ⟨referral, told, -, answered⟩ := (nameserversAnswer_eq_some world).mp verdict
  obtain ⟨address, member, answers⟩ := (any_asked world).mp answered
  obtain ⟨host, isHost, isAddress⟩ := (exists_mem_allAddresses world).mpr (.inl member)
  exact ⟨referral, told, host, isHost, address, isAddress, answers⟩

private theorem silent_of_dead {domain : Text} {referral : Message}
    (told : parentReferral world (normalized domain) = .ok (some referral))
    (verdict : nameserversAnswer world domain = .ok (some false)) :
    ¬ ∃ address ∈ asked world referral, authoritative world (normalized domain) address = true := by
  obtain ⟨other, same, -, unanswered⟩ := (nameserversAnswer_eq_some world).mp verdict
  obtain rfl : referral = other := by simpa [told] using same
  rw [← any_asked, unanswered]
  exact Bool.false_ne_true

/-- The verdict is true exactly where what is left out decides nothing. -/
theorem isTrue_iff (domain : Text) : IsTrue world domain ↔ Covered world domain := by
  constructor
  · intro isTrue referral told
    by_cases answered : ∃ address ∈ asked world referral,
        authoritative world (normalized domain) address = true
    · exact .inl answered
    · refine .inr ?_
      by_cases none : delegated referral = []
      · simp [leftOut, none]
      · have verdict : nameserversAnswer world domain = .ok (some false) :=
          (nameserversAnswer_eq_some world).mpr
            ⟨referral, told, none, Bool.eq_false_iff.mpr (mt (any_asked world).mp answered)⟩
        obtain ⟨other, same, silent, read⟩ := isTrue.dead verdict
        obtain rfl : referral = other := by simpa [told] using same
        refine ⟨fun address member => ?_, read⟩
        obtain ⟨host, isHost, isAddress⟩ := (exists_mem_allAddresses world).mpr (.inr member)
        exact silent host isHost address isAddress
  · refine fun covered => ⟨fun verdict => ?_, alive_of_nameserversAnswer world⟩
    obtain ⟨referral, told, -, -⟩ := (nameserversAnswer_eq_some world).mp verdict
    have unanswered := silent_of_dead world told verdict
    obtain ⟨silent, read⟩ := (covered referral told).resolve_left unanswered
    refine ⟨referral, told, fun host isHost address isAddress => ?_, read⟩
    rcases (exists_mem_allAddresses world).mp ⟨host, isHost, isAddress⟩ with member | member
    · exact Bool.eq_false_iff.mpr fun answers => unanswered ⟨address, member, answers⟩
    · exact silent address member

/-- A parent that delegates to one server of another domain without its address. -/
private def lameReferral : Message where
  rcode := 0
  authoritative := false
  answer := []
  authority := [{ name := "shop.nl.".toList, records := .ns ["ns1.hosting.com.".toList] }]
  additional := []

/-- The domain of a server that answers, while our own resolver does not find its address. -/
def unreadServer : World where
  validName _ := true
  nameServers _ := .found ["ns1.dns.nl.".toList]
  lookup host _ := if host = "ns1.dns.nl.".toList then .found [.quad 194 0 28 53] else .failed
  referral _ _ := some lameReferral
  soa _ _ := some {
    rcode := 0
    authoritative := true
    answer := [{ name := "shop.nl.".toList, records := .soa }]
    authority := []
    additional := [] }

private theorem unreadServer_lookup (host : Text) (family : Family) :
    unreadServer.lookup host family =
      if host = "ns1.dns.nl.".toList then .found [.quad 194 0 28 53] else .failed :=
  rfl

private theorem unreadServer_referral (domain : Text) :
    parentReferral unreadServer domain = .ok (some lameReferral) := by
  have found : unreadServer.lookup "ns1.dns.nl.".toList .a = .found [.quad 194 0 28 53] := by
    rw [unreadServer_lookup, if_pos rfl]
  have servers : unreadServer.nameServers (tldOf domain) = .found ["ns1.dns.nl.".toList] := rfl
  have valid : unreadServer.validName domain = true := rfl
  simp only [parentReferral, servers, valid, if_true, List.take_succ_cons, List.take_nil,
    List.findSome?_cons, List.findSome?_nil, addresses, found, Lookup.records, List.cons_append,
    List.take_zero]
  rfl

/-- A lookup that failed is taken for a server without addresses, and the domain called dead. -/
theorem unreadServer_called_dead : ¬ IsTrue unreadServer "shop.nl".toList := by
  intro isTrue
  have other : "ns1.hosting.com.".toList ≠ "ns1.dns.nl.".toList := by decide +kernel
  have failed (family : Family) :
      unreadServer.lookup "ns1.hosting.com.".toList family = .failed := by
    rw [unreadServer_lookup, if_neg other]
  have verdict : nameserversAnswer unreadServer "shop.nl".toList = .ok (some false) := by
    refine (nameserversAnswer_eq_some unreadServer).mpr
      ⟨lameReferral, unreadServer_referral _, List.cons_ne_nil _ _, ?_⟩
    have servers : delegated lameReferral = ["ns1.hosting.com.".toList] := rfl
    have untold : glue lameReferral "ns1.hosting.com.".toList = [] := rfl
    simp only [servers, List.take_succ_cons, List.take_nil, List.any_cons, List.any_nil, candidates,
      untold, if_true, addresses, failed, Lookup.records, List.append_nil, Bool.or_self]
  obtain ⟨referral, told, -, read⟩ := isTrue.dead verdict
  rw [unreadServer_referral] at told
  obtain rfl : lameReferral = referral := by simpa using told
  exact read "ns1.hosting.com.".toList List.mem_cons_self ⟨rfl, .a, failed .a⟩

end Delegation
end DomainLens
