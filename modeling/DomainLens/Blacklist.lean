import DomainLens.IpLists
import DomainLens.Library.OrderedDict

/-!
# Blocklists

An address is looked up in lists that are kept in the domain name system, under its reversed text and the name of
the list.  A list is asked for its test address first, and what it answers is remembered for an hour.
-/

namespace DomainLens
namespace Blacklist

open Python

/-! ## Lists -/

inductive Kind where
  | ip
  | domain
deriving DecidableEq

structure Blocklist where
  host : Text
  kind : Kind
  label : Text
deriving DecidableEq

/-- `_DNSBL_OPEN`. -/
def dnsblOpen : List Text :=
  ["bl.spamcop.net".toList, "b.barracudacentral.org".toList, "cbl.abuseat.org".toList,
    "dnsbl-1.uceprotect.net".toList, "psbl.surriel.com".toList]

/-- `_DNSBL_SPAMHAUS_IP_ZONES` and `_DNSBL_SPAMHAUS_DOMAIN_ZONES`. -/
def spamhausZones : List (Text × Kind) :=
  [("zen".toList, .ip), ("dbl".toList, .domain), ("zrd".toList, .domain)]

def spamhausHost (zone : Text) : Text := zone ++ ".dq.spamhaus.net".toList

/-- `_build_dnsbl_list`, with the key of the account, if there is one. -/
def buildDnsblList (key : Text) : List Blocklist :=
  dnsblOpen.map (fun zone => ⟨zone, .ip, zone⟩) ++
    if key = [] then []
    else spamhausZones.map fun zone =>
      ⟨key ++ '.' :: spamhausHost zone.1, zone.2, spamhausHost zone.1⟩

/-! ## Answers -/

/-- What the resolver does with a question. -/
inductive Lookup where
  | answers (records : List Text)
  | nxdomain
  | noAnswer
  | failed
deriving DecidableEq

/-- There is no such name, or no such record of it. -/
def Lookup.IsNegative (lookup : Lookup) : Prop := lookup = .nxdomain ∨ lookup = .noAnswer

instance (lookup : Lookup) : Decidable lookup.IsNegative := inferInstanceAs (Decidable (_ ∨ _))

/-- `_dnsbl_is_real_hit`. -/
def isRealHit : List Text → Bool
  | [] => false
  | record :: records =>
      match record.splitOn '.' with
      | [first, second, _, fourth] =>
          if first ≠ "127".toList then isRealHit records
          else second ≠ "255".toList && fourth ≠ "255".toList
      | _ => isRealHit records

/-- `ZEN_PBL`. -/
def zenPbl : List Text := ["127.0.0.10".toList, "127.0.0.11".toList]

/-- Where an answer puts a list; a listing comes with its code. -/
inductive Verdict where
  | listed (code : Text)
  | policy (code : Text)
  | clean
  | refused
  | unmeasured
deriving DecidableEq

def verdictOf : Lookup → Verdict
  | .answers records =>
      if isRealHit records then
        if records.all (· ∈ zenPbl) then .policy (records.head?.getD [])
        else .listed ((records.find? (· ∉ zenPbl)).getD [])
      else .refused
  | .nxdomain | .noAnswer => .clean
  | .failed => .unmeasured

/-! ## Addresses -/

/-- An address as it is written; that of the newer kind has many spellings, all with a colon. -/
inductive Address where
  | v4 (value : BitVec 32)
  | v6 (value : BitVec 128) (spelling : Text) (colon : ':' ∈ spelling)

namespace Address

def value : Address → IpAddress
  | .v4 value => .v4 value
  | .v6 value _ _ => .v6 value

def isV4 : Address → Bool
  | .v4 _ => true
  | .v6 _ _ _ => false

def octets (value : BitVec 32) : List Nat :=
  [value.toNat / 16777216, value.toNat / 65536 % 256, value.toNat / 256 % 256, value.toNat % 256]

def text : Address → Text
  | .v4 value => ['.'].intercalate ((octets value).map strOf)
  | .v6 _ spelling _ => spelling

/-- `".".join(reversed(ip.split(".")))`. -/
def reversed (address : Address) : Text := ['.'].intercalate (address.text.splitOn '.').reverse

/-- The front of the name that RFC 5782 gives an address in a list: the numbers of an address of the older kind,
the hexadecimal digits of one of the newer, the last one first. -/
def rfcFront : Address → Text
  | .v4 value => ['.'].intercalate ((octets value).reverse.map strOf)
  | .v6 value _ _ =>
      ['.'].intercalate ((List.range 32).map fun place => [Nat.digitChar (value.toNat / 16 ^ place % 16)])

end Address

inductive Target where
  | address (address : Address)
  | host (name : Text) (resolved : Except Text (BitVec 32))

namespace Target

/-- The `domain` of the call. -/
def domain : Target → Text
  | .address given => given.text
  | .host name _ => name

def isAddress : Target → Bool
  | .address _ => true
  | .host _ _ => false

def ip : Target → Except Text Address
  | .address given => .ok given
  | .host _ resolved => resolved.map .v4

end Target

/-! ## The lookup -/

/-- The resolver and the clock during one call: what each list answers for its test address and for what it is
asked, and the time of its turn. -/
structure Network where
  test : Text → Lookup
  ask : Text → Lookup
  now : Text → ℚ

/-- A question: the list, what is in front of its name, and the answer. -/
structure Query where
  host : Text
  front : Text
  answer : Lookup
deriving DecidableEq

def Query.name (query : Query) : Text := query.front ++ '.' :: query.host

/-- `_dnsbl_alive_cache`. -/
abbrev Cache := List (Text × ℚ × Bool)

structure Tally where
  listed : List Text
  clean : List Text
  errors : List Text
  unmeasured : List Text
  policy : List Text
  codes : List (Text × Text)

def Tally.empty : Tally := ⟨[], [], [], [], [], []⟩

def Tally.put (tally : Tally) (label : Text) : Verdict → Tally
  | .listed code =>
      { tally with
        listed := tally.listed ++ [label], codes := OrderedDict.assign label code tally.codes }
  | .policy code =>
      { tally with
        policy := tally.policy ++ [label], codes := OrderedDict.assign label code tally.codes }
  | .clean => { tally with clean := tally.clean ++ [label] }
  | .refused =>
      { tally with errors := tally.errors ++ [label], unmeasured := tally.unmeasured ++ [label] }
  | .unmeasured => { tally with unmeasured := tally.unmeasured ++ [label] }

/-- The call as far as it has come, with what it has asked. -/
structure Work where
  tally : Tally
  cache : Cache
  asked : List Query

/-- `_DNSBL_TEST`. -/
def dnsblTest : Text := "2.0.0.127".toList

/-- `_DNSBL_ALIVE_SECONDS`. -/
def aliveSeconds : ℚ := 3600

section Call

variable (network : Network)

/-- What is remembered of a list, if it is not too old. -/
def cached (cache : Cache) (host : Text) : Option (ℚ × Bool) :=
  (cache.lookup host).filter fun entry => network.now host - entry.1 < aliveSeconds

/-- Whether a list works by the answer for its test address. -/
def passes : Lookup → Option Bool
  | .answers records => some (isRealHit records)
  | .nxdomain | .noAnswer => some false
  | .failed => none

/-- `_dnsbl_alive`. -/
def dnsblAlive (cache : Cache) (host : Text) : Option Bool :=
  match cached network cache host with
  | some entry => some entry.2
  | none => passes (network.test host)

/-- What `_dnsbl_alive` leaves: the question, where it is asked, and the answer, unless there is none. -/
def remember (work : Work) (host : Text) : Work :=
  match cached network work.cache host with
  | some _ => work
  | none =>
      { work with
        cache := match passes (network.test host) with
          | some alive => OrderedDict.assign host (network.now host, alive) work.cache
          | none => work.cache
        asked := work.asked ++ [⟨host, dnsblTest, network.test host⟩] }

def Work.ask (work : Work) (front : Text) (list : Blocklist) : Work :=
  { work with
    tally := work.tally.put list.label (verdictOf (network.ask list.host))
    asked := work.asked ++ [⟨list.host, front, network.ask list.host⟩] }

def consult (domain reversedIp : Text) (work : Work) (list : Blocklist) : Work :=
  match list.kind with
  | .ip =>
      let later := remember network work list.host
      if dnsblAlive network work.cache list.host = some true then later.ask network reversedIp list
      else { later with tally := later.tally.put list.label .unmeasured }
  | .domain => work.ask network domain list

/-- What outlives a call: the answers to the tests, and everything that was asked. -/
structure State where
  cache : Cache
  history : List Query

structure Results where
  tally : Tally
  ip : Option Text
  spamhausDqs : Bool
  ipLists : Option (IpLists.State × List IpLists.Naming)
  isListed : Bool
  measured : Option Nat
  error : Option Text

def consulted (key : Text) (target : Target) : List Blocklist :=
  (buildDnsblList key).filter fun list => !(target.isAddress && list.kind = .domain)

def consultAll (key : Text) (target : Target) (ip : Address) (cache : Cache) : Work :=
  (consulted key target).foldl (consult network target.domain ip.reversed) ⟨.empty, cache, []⟩

/-- `check_blacklist`. -/
def checkBlacklist (store : IpLists.Store) (key : Text) (target : Target) (state : State) :
    Results × State :=
  match target.ip with
  | .error problem => (⟨.empty, none, key ≠ [], none, false, none, some problem⟩, state)
  | .ok ip =>
      let work := consultAll network key target ip state.cache
      let tally := work.tally
      ({ tally
         ip := some ip.text
         spamhausDqs := key ≠ []
         ipLists := some (IpLists.check store (some ip.value))
         isListed := tally.listed ≠ []
         measured := some (tally.listed.length + tally.clean.length + tally.policy.length)
         error := none },
        ⟨work.cache, state.history ++ work.asked⟩)

end Call

/-- One call, with what the installation has at the time. -/
structure Visit where
  network : Network
  store : IpLists.Store
  key : Text
  target : Target

def visited (visits : List Visit) : State :=
  visits.foldl (fun state visit =>
    (checkBlacklist visit.network visit.store visit.key visit.target state).2) ⟨[], []⟩

/-! ## Attribution -/

/-- A list has listed its test address. -/
def Passed (queries : List Query) (host : Text) : Prop :=
  ∃ query ∈ queries, query.host = host ∧ query.front = dnsblTest ∧
    passes query.answer = some true

/-- The name RFC 5782 gives the address was asked in a list, and there was nothing. -/
def AskedClean (queries : List Query) (address : Address) (host : Text) : Prop :=
  ∃ query ∈ queries, query.host = host ∧ query.front = address.rfcFront ∧ query.answer.IsNegative

def Tally.placed (tally : Tally) : List Text :=
  tally.listed ++ tally.clean ++ tally.policy ++ tally.unmeasured

abbrev looked (network : Network) (store : IpLists.Store) (key : Text) (address : Address)
    (state : State) : Results × State :=
  checkBlacklist network store key (.address address) state

def askedBy (network : Network) (store : IpLists.Store) (key : Text) (address : Address)
    (state : State) : List Query :=
  (looked network store key address state).2.history.drop state.history.length

/-- Each list that is consulted for an address has one place, and is clean only by an answer to the question for
that address, from a list that has passed its test. -/
structure Attributed (network : Network) (store : IpLists.Store) (key : Text) (address : Address)
    (state : State) : Prop where
  once : ∀ list ∈ consulted key (.address address),
    (looked network store key address state).1.tally.placed.count list.label = 1
  clean : ∀ list ∈ consulted key (.address address),
    list.label ∈ (looked network store key address state).1.tally.clean →
      AskedClean (askedBy network store key address state) address list.host ∧
        Passed (looked network store key address state).2.history list.host

/-- No list that works says that there is nothing. -/
def NoneNegative (network : Network) (key : Text) (address : Address) (cache : Cache) : Prop :=
  ∀ list ∈ consulted key (.address address), dnsblAlive network cache list.host = some true →
    ¬(network.ask list.host).IsNegative

/-! ## The names of the lists -/

theorem labels_nodup (key : Text) : ((buildDnsblList key).map Blocklist.label).Nodup := by
  rw [buildDnsblList]
  split_ifs
  · decide
  · rw [List.map_append, List.map_map, List.map_map]
    change (dnsblOpen.map id ++ spamhausZones.map fun zone => spamhausHost zone.1).Nodup
    decide

private theorem apart_of_suffix {front suffix zone : Text} (apart : ¬suffix <:+ zone) :
    zone ≠ front ++ suffix :=
  fun same => apart ⟨front, same.symm⟩

theorem hosts_nodup (key : Text) : ((buildDnsblList key).map Blocklist.host).Nodup := by
  rw [buildDnsblList, List.map_append, List.map_map]
  change (dnsblOpen.map id ++ _).Nodup
  rw [List.map_id]
  split_ifs
  · decide
  · rw [List.map_map]
    refine List.nodup_append.mpr ⟨by decide, ?_, ?_⟩
    · refine List.Nodup.map_on ?_ (by decide : spamhausZones.Nodup)
      intro zone member other isOther same
      have cancelled := List.append_cancel_left same
      clear same
      revert zone other
      decide
    · intro zone isOpen host isHost
      obtain ⟨other, listed, rfl⟩ := List.mem_map.mp isHost
      refine apart_of_suffix ?_
      clear isHost
      revert zone other
      decide

/-! ## The fronts of the names -/

private theorem mem_intercalate_of_mem {parts : List Text} {part : Text} {char : Char} (isPart : part ∈ parts)
    (member : char ∈ part) : char ∈ ['.'].intercalate parts := by
  induction parts with
  | nil => cases isPart
  | cons first parts induction =>
      cases parts with
      | nil =>
          rw [List.intercalate_singleton, ← List.mem_singleton.mp isPart]
          exact member
      | cons second parts =>
          rw [List.intercalate_cons_cons, List.mem_append]
          rcases List.mem_cons.mp isPart with rfl | later
          · exact .inl (List.mem_append_left _ member)
          · exact .inr (induction later)

private theorem dot_not_mem_strOf (value : Nat) : '.' ∉ strOf value := by
  intro member
  exact absurd (isDecimal_of_mem_strOf member) (by decide)

namespace Address

theorem reversed_v4 (value : BitVec 32) : (Address.v4 value).reversed = (Address.v4 value).rfcFront := by
  have parts : (Address.v4 value).text.splitOn '.' = (octets value).map strOf := by
    refine List.splitOn_intercalate '.' (fun part member => ?_) (by simp [octets])
    obtain ⟨number, -, rfl⟩ := List.mem_map.mp member
    exact dot_not_mem_strOf number
  rw [reversed, parts, rfcFront, List.map_reverse]

private theorem digitChar_plain {digit : Nat} (small : digit < 16) :
    Nat.digitChar digit ≠ '.' ∧ Nat.digitChar digit ≠ ':' := by
  revert digit
  decide

theorem splitOn_rfcFront_v6 (value : BitVec 128) (spelling : Text) (colon : ':' ∈ spelling) :
    (Address.v6 value spelling colon).rfcFront.splitOn '.' =
      (List.range 32).map fun place => [Nat.digitChar (value.toNat / 16 ^ place % 16)] := by
  refine List.splitOn_intercalate '.' (fun part member => ?_) (by simp)
  obtain ⟨place, -, rfl⟩ := List.mem_map.mp member
  rw [List.mem_singleton]
  exact (digitChar_plain (Nat.mod_lt _ (by decide))).1.symm

/-- An address of the newer kind is asked for by its spelling, which has a colon. -/
theorem reversed_v6_ne (value : BitVec 128) (spelling : Text) (colon : ':' ∈ spelling) :
    (Address.v6 value spelling colon).reversed ≠ (Address.v6 value spelling colon).rfcFront := by
  intro same
  have joined : ':' ∈ ['.'].intercalate (spelling.splitOn '.') := by
    rw [List.intercalate_splitOn]
    exact colon
  obtain absent | ⟨part, isPart, inside⟩ := mem_intercalate joined
  · cases absent
  · have member : ':' ∈ (Address.v6 value spelling colon).rfcFront :=
      same ▸ mem_intercalate_of_mem (List.mem_reverse.mpr isPart) inside
    rw [rfcFront] at member
    obtain absent | ⟨digit, isDigit, inside⟩ := mem_intercalate member
    · cases absent
    · obtain ⟨place, -, rfl⟩ := List.mem_map.mp isDigit
      exact (digitChar_plain (Nat.mod_lt _ (by decide))).2 (List.mem_singleton.mp inside).symm

theorem dnsblTest_ne_v6 (value : BitVec 128) (spelling : Text) (colon : ':' ∈ spelling) :
    dnsblTest ≠ (Address.v6 value spelling colon).rfcFront := by
  intro same
  have counted := congrArg (fun text : Text => (text.splitOn '.').length) same
  rw [show (Address.v6 value spelling colon).rfcFront.splitOn '.' = _ from
    splitOn_rfcFront_v6 value spelling colon, List.length_map, List.length_range] at counted
  exact absurd counted (by decide)

end Address

/-! ## One list after the other -/

section Loop

variable (network : Network) {domain reversedIp : Text} {work : Work} {list : Blocklist}

/-- Where a list ends, by what is remembered when the call begins. -/
def verdict (cache : Cache) (list : Blocklist) : Verdict :=
  if list.kind = .ip ∧ dnsblAlive network cache list.host ≠ some true then .unmeasured
  else verdictOf (network.ask list.host)

theorem consult_tally : (consult network domain reversedIp work list).tally =
    work.tally.put list.label (verdict network work.cache list) := by
  have kept : (remember network work list.host).tally = work.tally := by
    rw [remember]
    split <;> rfl
  rw [consult, verdict]
  cases kind : list.kind with
  | domain =>
      simp only [reduceCtorEq, false_and, if_false]
      rfl
  | ip =>
      by_cases alive : dnsblAlive network work.cache list.host = some true
      · simp only [alive, if_true, ne_eq, not_true, and_false, if_false, Work.ask, kept]
      · simp only [alive, if_false, ne_eq, not_false_eq_true, and_self, if_true, kept]

theorem dnsblAlive_consult {host : Text} (other : host ≠ list.host) :
    dnsblAlive network (consult network domain reversedIp work list).cache host =
      dnsblAlive network work.cache host := by
  have looked : (remember network work list.host).cache.lookup host = work.cache.lookup host := by
    rw [remember]
    split
    · rfl
    · split
      · rw [OrderedDict.lookup_assign, if_neg other]
      · rfl
  have kept : (consult network domain reversedIp work list).cache.lookup host =
      work.cache.lookup host := by
    rw [consult]
    cases list.kind with
    | domain => rfl
    | ip =>
        dsimp only
        split_ifs
        · exact looked
        · exact looked
  rw [dnsblAlive, dnsblAlive, cached, cached, kept]

theorem verdict_consult {other : Blocklist} (apart : other.host ≠ list.host) :
    verdict network (consult network domain reversedIp work list).cache other =
      verdict network work.cache other := by
  rw [verdict, verdict, dnsblAlive_consult network apart]

theorem count_placed_put (tally : Tally) (label other : Text) (verdict : Verdict) :
    (tally.put label verdict).placed.count other = tally.placed.count other + [label].count other := by
  cases verdict <;> simp only [Tally.put, Tally.placed, List.count_append] <;> omega

theorem count_placed (lists : List Blocklist) (label : Text) :
    (lists.foldl (consult network domain reversedIp) work).tally.placed.count label =
      work.tally.placed.count label + (lists.map Blocklist.label).count label := by
  induction lists generalizing work with
  | nil => rfl
  | cons list lists induction =>
      rw [List.foldl_cons, induction, consult_tally, count_placed_put, List.map_cons]
      simp only [List.count_cons, List.count_nil]
      omega

theorem mem_clean_iff {lists : List Blocklist} (distinct : (lists.map Blocklist.host).Nodup)
    (label : Text) :
    label ∈ (lists.foldl (consult network domain reversedIp) work).tally.clean ↔
      label ∈ work.tally.clean ∨
        ∃ list ∈ lists, list.label = label ∧ verdict network work.cache list = .clean := by
  induction lists generalizing work with
  | nil => simp
  | cons list lists induction =>
      obtain ⟨new, distinct⟩ := List.nodup_cons.mp distinct
      have later : (∃ other ∈ lists, other.label = label ∧
          verdict network (consult network domain reversedIp work list).cache other = .clean) ↔
          ∃ other ∈ lists, other.label = label ∧ verdict network work.cache other = .clean := by
        refine exists_congr fun other => and_congr_right fun member => ?_
        rw [verdict_consult network fun same => new (same ▸ List.mem_map_of_mem member)]
      have first : label ∈ (consult network domain reversedIp work list).tally.clean ↔
          label ∈ work.tally.clean ∨
            list.label = label ∧ verdict network work.cache list = .clean := by
        rw [consult_tally]
        cases ends : verdict network work.cache list <;> simp [Tally.put, eq_comm]
      rw [List.foldl_cons, induction distinct, later, first, List.exists_mem_cons_iff, or_assoc]

/-! ## What is asked -/

theorem asked_remember (host : Text) :
    (remember network work host).asked = work.asked ∨
      (remember network work host).asked = work.asked ++ [⟨host, dnsblTest, network.test host⟩] := by
  rw [remember]
  split
  · exact .inl rfl
  · exact .inr rfl

theorem front_of_asked {lists : List Blocklist} (isIp : ∀ list ∈ lists, list.kind = .ip) {query : Query}
    (member : query ∈ (lists.foldl (consult network domain reversedIp) work).asked) :
    query ∈ work.asked ∨ query.front = dnsblTest ∨ query.front = reversedIp := by
  induction lists generalizing work with
  | nil => exact .inl member
  | cons list lists induction =>
      rw [List.foldl_cons] at member
      rcases induction (fun other later => isIp other (List.mem_cons_of_mem _ later)) member with
        early | front
      · rw [consult, isIp list List.mem_cons_self] at early
        have tested : query ∈ (remember network work list.host).asked →
            query ∈ work.asked ∨ query.front = dnsblTest ∨ query.front = reversedIp := by
          intro old
          rcases @asked_remember network work list.host with same | same
          · exact .inl (same ▸ old)
          · rw [same] at old
            rcases List.mem_append.mp old with old | new
            · exact .inl old
            · exact .inr (.inl (by rw [List.mem_singleton.mp new]))
        dsimp only at early
        split_ifs at early
        · rcases List.mem_append.mp early with old | new
          · exact tested old
          · exact .inr (.inr (by rw [List.mem_singleton.mp new]))
        · exact tested early
      · exact .inr front

theorem asked_subset_consult : work.asked ⊆ (consult network domain reversedIp work list).asked := by
  have tested : work.asked ⊆ (remember network work list.host).asked := by
    rcases @asked_remember network work list.host with same | same <;> rw [same]
    · exact fun _ => id
    · exact List.subset_append_left _ _
  rw [consult]
  cases list.kind with
  | domain => exact List.subset_append_left _ _
  | ip =>
      dsimp only
      split_ifs
      · exact fun _ member => List.mem_append_left _ (tested member)
      · exact tested

theorem asked_subset_foldl (lists : List Blocklist) :
    work.asked ⊆ (lists.foldl (consult network domain reversedIp) work).asked := by
  induction lists generalizing work with
  | nil => exact fun _ => id
  | cons list lists induction => exact fun _ member => induction (asked_subset_consult network member)

/-! ## The tests -/

variable {history : List Query}

private theorem append_subset {queries more : List Query} (subset : queries ⊆ more) :
    history ++ queries ⊆ history ++ more :=
  fun _ member => (List.mem_append.mp member).elim (List.mem_append_left _)
    fun later => List.mem_append_right _ (subset later)

theorem Passed.mono {queries more : List Query} {host : Text} (passed : Passed queries host)
    (subset : queries ⊆ more) : Passed more host := by
  obtain ⟨query, member, facts⟩ := passed
  exact ⟨query, subset member, facts⟩

/-- Whatever is remembered to work has passed its test. -/
def Remembers (history : List Query) (work : Work) : Prop :=
  ∀ entry ∈ work.cache, entry.2.2 = true → Passed (history ++ work.asked) entry.1

theorem Remembers.remember (holds : Remembers history work) (host : Text) :
    Remembers history (remember network work host) := by
  rw [Blacklist.remember]
  split
  · exact holds
  · rename_i unknown
    have wider : history ++ work.asked ⊆
        history ++ (work.asked ++ [⟨host, dnsblTest, network.test host⟩]) := by
      rw [← List.append_assoc]
      exact List.subset_append_left _ _
    intro entry member works
    dsimp only at member
    split at member
    · rename_i alive answer
      rcases OrderedDict.mem_assign member with rfl | old
      · refine ⟨_, List.mem_append_right _ (List.mem_append_right _ List.mem_cons_self), rfl, rfl, ?_⟩
        rw [answer, ← works]
      · exact (holds entry old works).mono wider
    · exact (holds entry member works).mono wider

theorem Remembers.passed (holds : Remembers history work) {host : Text}
    (alive : dnsblAlive network work.cache host = some true) :
    Passed (history ++ (Blacklist.remember network work host).asked) host := by
  rw [dnsblAlive] at alive
  rw [Blacklist.remember]
  cases known : cached network work.cache host with
  | some entry =>
      rw [known] at alive
      have found := (Option.filter_eq_some_iff.mp known).1
      exact holds (host, entry) (OrderedDict.mem_of_lookup found) (Option.some.inj alive)
  | none =>
      rw [known] at alive
      exact ⟨_, List.mem_append_right _ (List.mem_append_right _ List.mem_cons_self), rfl, rfl, alive⟩

theorem Remembers.consult (holds : Remembers history work) :
    Remembers history (consult network domain reversedIp work list) := by
  have later := holds.remember network list.host
  rw [Blacklist.consult]
  cases list.kind with
  | domain =>
      refine fun entry member works => (holds entry member works).mono ?_
      exact append_subset (List.subset_append_left _ _)
  | ip =>
      dsimp only
      split_ifs
      · refine fun entry member works => (later entry member works).mono ?_
        exact append_subset (List.subset_append_left _ _)
      · exact later

theorem Remembers.foldl (holds : Remembers history work) (lists : List Blocklist) :
    Remembers history (lists.foldl (Blacklist.consult network domain reversedIp) work) := by
  induction lists generalizing work with
  | nil => exact holds
  | cons list lists induction => exact induction (holds.consult network)

theorem isNegative_of_clean {lookup : Lookup} (clean : verdictOf lookup = .clean) :
    lookup.IsNegative := by
  cases lookup with
  | answers records =>
      rw [verdictOf] at clean
      split_ifs at clean
  | nxdomain => exact .inl rfl
  | noAnswer => exact .inr rfl
  | failed => cases clean

theorem verdict_eq_clean (isIp : list.kind = .ip) {cache : Cache}
    (clean : verdict network cache list = .clean) :
    dnsblAlive network cache list.host = some true ∧ (network.ask list.host).IsNegative := by
  rw [verdict] at clean
  split_ifs at clean with dead
  rw [not_and_not_right] at dead
  exact ⟨dead isIp, isNegative_of_clean clean⟩

/-- A list that ends clean has passed its test, and was asked with the text of the target in front. -/
theorem asked_of_clean (holds : Remembers history work) {lists : List Blocklist}
    (distinct : (lists.map Blocklist.host).Nodup) (isIp : ∀ list ∈ lists, list.kind = .ip)
    (member : list ∈ lists) (clean : verdict network work.cache list = .clean) :
    (⟨list.host, reversedIp, network.ask list.host⟩ : Query) ∈
        (lists.foldl (consult network domain reversedIp) work).asked ∧
      Passed (history ++ (lists.foldl (consult network domain reversedIp) work).asked) list.host := by
  induction lists generalizing work with
  | nil => cases member
  | cons first lists induction =>
      obtain ⟨new, distinct⟩ := List.nodup_cons.mp distinct
      rw [List.foldl_cons]
      rcases List.mem_cons.mp member with rfl | later
      · have kind := isIp list List.mem_cons_self
        have alive := (verdict_eq_clean network kind clean).1
        have step : (consult network domain reversedIp work list).asked =
            (remember network work list.host).asked ++
              [⟨list.host, reversedIp, network.ask list.host⟩] := by
          simp only [consult, kind, alive, if_true, Work.ask]
        have grows : (consult network domain reversedIp work list).asked ⊆
            (lists.foldl (consult network domain reversedIp) _).asked :=
          asked_subset_foldl network lists
        rw [step] at grows
        refine ⟨grows (List.mem_append_right _ List.mem_cons_self), ?_⟩
        refine (holds.passed network alive).mono (append_subset ?_)
        exact fun _ tested => grows (List.mem_append_left _ tested)
      · have apart : list.host ≠ first.host := fun same => new (same ▸ List.mem_map_of_mem later)
        have kept : verdict network (consult network domain reversedIp work first).cache list =
            verdict network work.cache list := verdict_consult network apart
        rw [← kept] at clean
        exact induction (holds.consult network) distinct
          (fun other member => isIp other (List.mem_cons_of_mem _ member)) later clean

end Loop

/-! ## Every call -/

theorem remembers_visited (visits : List Visit) :
    Remembers (visited visits).history ⟨.empty, (visited visits).cache, []⟩ := by
  rw [visited]
  induction visits using List.reverseRecOn with
  | nil => exact nofun
  | append_singleton visits visit induction =>
      rw [List.foldl_append, List.foldl_cons, List.foldl_nil]
      generalize visits.foldl _ _ = state at induction ⊢
      rw [checkBlacklist]
      split
      · exact induction
      · rename_i ip _
        intro entry member works
        rw [List.append_nil]
        exact (induction.foldl visit.network _) entry member works

theorem isIp_of_mem_consulted {key : Text} {address : Address} {list : Blocklist}
    (member : list ∈ consulted key (.address address)) : list.kind = .ip := by
  have kept := (List.mem_filter.mp member).2
  cases kind : list.kind with
  | ip => rfl
  | domain =>
      rw [kind] at kept
      cases kept

theorem nodup_consulted {α : Type*} {field : Blocklist → α} {key : Text}
    (distinct : ((buildDnsblList key).map field).Nodup) (target : Target) :
    ((consulted key target).map field).Nodup :=
  distinct.sublist (List.filter_sublist.map field)

section Attribution

variable (visits : List Visit) (network : Network) (store : IpLists.Store) (key : Text)
  (address : Address)

theorem askedBy_eq (state : State) : askedBy network store key address state =
    (consultAll network key (.address address) address state.cache).asked :=
  List.drop_left

theorem clean_iff {list : Blocklist} (member : list ∈ consulted key (.address address)) :
    list.label ∈ (looked network store key address (visited visits)).1.tally.clean ↔
      verdict network (visited visits).cache list = .clean := by
  change list.label ∈ (consultAll network key (.address address) address _).tally.clean ↔ _
  rw [consultAll, mem_clean_iff network (nodup_consulted (hosts_nodup key) _)]
  constructor
  · rintro (none | ⟨other, isOther, same, clean⟩)
    · cases none
    · have distinct := nodup_consulted (labels_nodup key) (.address address)
      rw [List.inj_on_of_nodup_map distinct member isOther same.symm]
      exact clean
  · exact fun clean => .inr ⟨list, member, rfl, clean⟩

/-- After any calls, a lookup of an address is attributed rightly if and only if the address is of the older kind
or no list that works says that there is nothing. -/
theorem attributed_iff : Attributed network store key address (visited visits) ↔
    address.isV4 = true ∨ NoneNegative network key address (visited visits).cache := by
  constructor
  · intro attributed
    cases address with
    | v4 value => exact .inl rfl
    | v6 value spelling colon =>
        refine .inr fun list member alive negative => ?_
        have clean : verdict network (visited visits).cache list = .clean := by
          rw [verdict, if_neg fun dead => dead.2 alive]
          rcases negative with same | same <;> rw [same] <;> rfl
        obtain ⟨⟨query, isAsked, -, front, -⟩, -⟩ :=
          attributed.clean list member ((clean_iff visits network store key _ member).mpr clean)
        rw [askedBy_eq] at isAsked
        rcases front_of_asked network (fun _ => isIp_of_mem_consulted) isAsked with none | test | asked
        · cases none
        · exact Address.dnsblTest_ne_v6 value spelling colon (test.symm.trans front)
        · exact Address.reversed_v6_ne value spelling colon (asked.symm.trans front)
  · intro fine
    constructor
    · intro list member
      refine (count_placed network _ _).trans ?_
      rw [List.count_eq_one_of_mem (nodup_consulted (labels_nodup key) _) (List.mem_map_of_mem member)]
      rfl
    · intro list member isClean
      have clean := (clean_iff visits network store key address member).mp isClean
      have found : (⟨list.host, address.reversed, network.ask list.host⟩ : Query) ∈
            (consultAll network key (.address address) address (visited visits).cache).asked ∧
          Passed (looked network store key address (visited visits)).2.history list.host :=
        asked_of_clean network (remembers_visited visits) (nodup_consulted (hosts_nodup key) _)
          (fun _ => isIp_of_mem_consulted) member clean
      obtain ⟨question, passed⟩ := found
      rw [← askedBy_eq network store] at question
      obtain ⟨alive, negative⟩ := verdict_eq_clean network (isIp_of_mem_consulted member) clean
      refine ⟨⟨_, question, rfl, ?_, negative⟩, passed⟩
      cases address with
      | v4 value => exact Address.reversed_v4 value
      | v6 value spelling colon =>
          rcases fine with none | fine
          · cases none
          · exact absurd negative (fine list member alive)

end Attribution

/-- An address of the newer kind is asked for in lists that do not know such a name. -/
theorem newer_address_clean :
    ¬Attributed ⟨fun _ => .answers ["127.0.0.2".toList], fun _ => .nxdomain, fun _ => 0⟩ .empty []
      (.v6 0x20010db8000000000000000000000001 "2001:db8::1".toList (by decide)) (visited []) := by
  intro attributed
  have cleaned := (attributed.clean ⟨"bl.spamcop.net".toList, .ip, "bl.spamcop.net".toList⟩
    (by decide +kernel) (by decide +kernel)).1
  obtain ⟨query, isAsked, -, front, -⟩ := cleaned
  revert query
  decide +kernel

end Blacklist
end DomainLens
