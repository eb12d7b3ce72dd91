import DomainLens.DomainPortfolio.Totals
import DomainLens.Management.Figures
import DomainLens.Monitors.Due

/-!
# Figures for each unit

Scanned hosts, monitors and their events are added to the unit that holds their registered domain and
to all units above it.  No figure is lost and none is counted twice.
-/

namespace DomainLens
namespace Management

open Python Forest Rollup
open DomainPortfolio (Account Books Counts Falls Group GroupId Groups countedOf getGroup
  getGroup_eq_find listGroups listGroups_perm parentIn parentIn_eq_some parentIn_of_mem
  registrable sum_ends tops)
open Monitors (MonitorId)

/-! ## The host of a target -/

/-- What comes after the first place of a mark. -/
def afterFirst (mark : Text) : Text → Option Text
  | [] => none
  | char :: text =>
      if mark <+: char :: text then some ((char :: text).drop mark.length) else afterFirst mark text

/-- `host_of`. -/
def hostOf (target : Text) : Text :=
  let text := lower (strip target)
  let address := (afterFirst "://".toList text).getD text
  let authority := address.takeWhile fun char => char ∉ ['/', '?', '#']
  let host := authority.rtakeWhile (· ≠ '@')
  if host.head? = some '[' then host else (host.takeWhile (· ≠ ':')).rdropWhile (· = '.')

example : hostOf "https://WWW.Example.com:8443/x".toList = "www.example.com".toList := by
  decide +kernel

/-! ## Units of hosts -/

/-- `units_by_domain`. -/
def unitsByDomain (books : Books) : List (Text × GroupId) :=
  books.portfolio.domains.filterMap fun row => row.groupId.map fun id => (row.domain, id)

/-- `parents`. -/
def parentsOf (listed : List DomainPortfolio.Listed) (id : GroupId) : Option (Option GroupId) :=
  (listed.find? fun entry => entry.group.id = id).map fun entry => entry.group.parentId

/-- The loop of `chain`. -/
def climb (parents : GroupId → Option (Option GroupId)) :
    Nat → Option GroupId → List GroupId → List GroupId
  | 0, _, seen => seen
  | _ + 1, none, seen => seen
  | fuel + 1, some unit, seen =>
      match parents unit with
      | none => seen
      | some parent => if unit ∈ seen then seen else climb parents fuel parent (seen ++ [unit])

/-- `chain`.  The loop adds a listed unit each time. -/
def chain (listed : List DomainPortfolio.Listed) (units : List (Text × GroupId)) (host : Text) :
    List (Option GroupId) :=
  let unit := units.lookup (registrable (hostOf host))
  let seen := climb (parentsOf listed) (listed.length + 1) unit []
  if seen = [] then [none] else seen.map some

/-! ## Figures -/

/-- The security figures of a unit. -/
@[ext]
structure Bucket where
  scanned : Nat
  ratings : Text → Nat
  critical : Nat
  high : Nat
  monitors : Nat
  monitorsEnabled : Nat
  events : Text → Nat

/-- `blank`. -/
def blank : Bucket where
  scanned := 0
  ratings := fun _ => 0
  critical := 0
  high := 0
  monitors := 0
  monitorsEnabled := 0
  events := fun _ => 0

def addScan (scanned : Summary) (bucket : Bucket) : Bucket :=
  { bucket with
    scanned := bucket.scanned + 1
    ratings := Function.update bucket.ratings (band scanned.rating)
      (bucket.ratings (band scanned.rating) + 1)
    critical := bucket.critical + scanned.counts "critical".toList
    high := bucket.high + scanned.counts "high".toList }

def addMonitor (monitor : Monitors.Stored) (bucket : Bucket) : Bucket :=
  { bucket with
    monitors := bucket.monitors + 1
    monitorsEnabled := bucket.monitorsEnabled + if monitor.enabled then 1 else 0 }

/-- The severities events are counted by. -/
def eventSeverities : List Text := ["critical", "high", "medium", "low", "info"].map String.toList

def addEvents (severity : Text) (count : Nat) (bucket : Bucket) : Bucket :=
  let name := if severity ∈ eventSeverities then severity else "info".toList
  { bucket with events := Function.update bucket.events name (bucket.events name + count) }

/-! ## The page -/

/-- A row of `monitor_events`, as far as it is counted. -/
structure EventRow where
  monitorId : MonitorId
  severity : Text
  createdAt : Text

/-- The tables the page reads; a monitor's `domain` stands apart from its other columns. -/
structure Records extends Stored where
  accounts : List Account
  answers : Text → DomainPortfolio.Registry.Row
  monitors : List Monitors.Stored
  domainOf : MonitorId → Text
  monitorEvents : List EventRow

/-- The monitors of `list_monitors`, at most 5000. -/
def Records.listed (records : Records) : List Monitors.Stored :=
  Monitors.listMonitors records.monitors none false 0 5000

/-- The target of a monitor, or its domain. -/
def Records.targetOf (records : Records) (monitor : Monitors.Stored) : Text :=
  if monitor.target = [] then records.domainOf monitor.id else monitor.target

/-- The events since a time, counted by monitor and severity. -/
def Records.counted (records : Records) (since : Text) : List ((MonitorId × Text) × Nat) :=
  let keys := (records.monitorEvents.filter fun row => since ≤ row.createdAt).map fun row =>
    (row.monitorId, row.severity)
  (fromKeys keys).map fun key => (key, keys.count key)

structure UnitFigures where
  unit : DomainPortfolio.Listed
  notifyEmails : List Text
  security : Bucket
  registration : Option Counts

/-- What `organisation` returns. -/
structure Organisation where
  generatedAt : Text
  days : Nat
  units : List UnitFigures
  unassigned : Bucket

/-- The units of `list_groups`. -/
def Records.units (records : Records) : List DomainPortfolio.Listed :=
  listGroups records.books.people records.books.portfolio.groups

/-- Some domains as `list_all` shows them. -/
def Records.shown (records : Records) (today : Int) (rows : List DomainPortfolio.Domain) :
    List DomainPortfolio.Counted :=
  rows.map (countedOf records.units (records.books.book.listContacts records.accounts) today
    records.answers)

/-- `security`: hosts with their summaries, monitors and counted events, each at the units of its
chain. -/
def securityOf (records : Records) (hosts : List (Text × Summary))
    (events : List ((MonitorId × Text) × Nat)) : Option GroupId → Bucket :=
  let chainOf := chain records.units (unitsByDomain records.books)
  let scanned := roll (fun host : Text × Summary => chainOf host.1) (fun host => addScan host.2) hosts
    fun _ => blank
  let monitorUnits := records.listed.map fun monitor => (monitor.id, chainOf (records.targetOf monitor))
  let watched := roll (fun monitor => chainOf (records.targetOf monitor)) addMonitor records.listed
    scanned
  roll (fun row : (MonitorId × Text) × Nat => (monitorUnits.lookup row.1.1).getD [none])
    (fun row => addEvents row.1.2 row.2) events watched

/-- The page of some scanned hosts and some counted events. -/
def figuresOf (records : Records) (now : DateTime) (days : Int) (today : Int)
    (hosts : List (Text × Summary)) (events : List ((MonitorId × Text) × Nat)) : Organisation :=
  let security := securityOf records hosts events
  let rows := DomainPortfolio.byName records.books.portfolio.domains
  let registration := (DomainPortfolio.summary (records.shown today rows) records.units).groups
  { generatedAt := now.isoformat
    days := clampDays days
    units := records.units.map fun entry =>
      { unit := entry
        notifyEmails := ((entry.group.notifyEmails.getD []).splitOn ',').filter (· ≠ [])
        security := security (some entry.group.id)
        registration := (registration.find? fun counted => counted.unit.group.id = entry.group.id).map
          DomainPortfolio.UnitCounts.subtree }
    unassigned := security none }

/-- The scans of the period, each host with its newest. -/
def Records.current (records : Records) (now start : DateTime) : List (Text × ScanKey) :=
  latestScans records.toStored now.isoformat none (some start.isoformat)

def summarized (current : List (Text × ScanKey)) (summaries : List (ScanKey × Summary)) :
    List (Text × Summary) :=
  current.filterMap fun entry => (summaries.lookup entry.2).map fun made => (entry.1, made)

/-- `organisation`. -/
def organisation (advice : Advice) (data : ScanKey → Entries) (world : World advice)
    (records : Records) (days : Int) (now : DateTime) (today : Int) (cache : Cache) :
    Except Failure (Organisation × Cache) :=
  match startOf now (clampDays days) with
  | none => .error .raised
  | some start =>
      let current := records.current now start
      match load advice data world records.toStored (fromKeys (current.map Prod.snd)) cache with
      | none => .error .raised
      | some (summaries, after) =>
          match startOf now 7 with
          | none => .error .raised
          | some week =>
              .ok (figuresOf records now days today (summarized current summaries)
                (records.counted week.isoformat), after)

/-! ## Which units a host is added at -/

section Chain

variable {people : List Nat} {groups : Groups}

private theorem parentsOf_listGroups (ranked : Ranked (parentIn groups)) (id : GroupId) :
    parentsOf (listGroups people groups) id = (groups.find id).map Group.parentId := by
  rw [← getGroup_eq_find people ranked, getGroup, Option.map_map]
  rfl

/-- The units gone through so far: stored ones, and the next one is above all of them. -/
private structure Climbed (groups : Groups) (current : Option GroupId) (seen : List GroupId) :
    Prop where
  distinct : seen.Nodup
  stored : seen ⊆ groups.rows.map Group.id
  above : ∀ id ∈ seen, ∀ next, current = some next →
    ∃ up, parentIn groups id = some up ∧ Below (parentIn groups) up next

private theorem climbed_append {unit : GroupId} {seen : List GroupId}
    (climbed : Climbed groups (some unit) seen) (isUnit : unit ∉ seen)
    (stored : unit ∈ groups.rows.map Group.id) :
    Climbed groups (parentIn groups unit) (seen ++ [unit]) where
  distinct := List.nodup_append.mpr ⟨climbed.distinct, List.nodup_singleton unit,
    fun left isLeft right isRight same => isUnit (List.mem_singleton.mp isRight ▸ same ▸ isLeft)⟩
  stored := List.append_subset.mpr
    ⟨climbed.stored, fun id held => List.mem_singleton.mp held ▸ stored⟩
  above id held next isNext := by
    rcases List.mem_append.mp held with old | new
    · obtain ⟨up, edge, below⟩ := climbed.above id old unit rfl
      exact ⟨up, edge, below.trans (Below.step isNext)⟩
    · rw [List.mem_singleton.mp new]
      exact ⟨next, isNext, Below.refl next⟩

private theorem climb_spec (ranked : Ranked (parentIn groups)) {fuel : Nat}
    {current : Option GroupId} {seen : List GroupId} (climbed : Climbed groups current seen)
    (enough : groups.rows.length < fuel + seen.length) :
    (climb (parentsOf (listGroups people groups)) fuel current seen).Nodup ∧
      ∀ id, id ∈ climb (parentsOf (listGroups people groups)) fuel current seen ↔
        id ∈ seen ∨ ∃ low, current = some low ∧ id ∈ groups.rows.map Group.id ∧
          Below (parentIn groups) low id := by
  induction fuel generalizing current seen with
  | zero =>
      have short := (List.subperm_of_subset climbed.distinct climbed.stored).length_le
      rw [List.length_map] at short
      omega
  | succ fuel induction =>
      cases current with
      | none => exact ⟨climbed.distinct, fun id => by simp [climb]⟩
      | some unit =>
          have new : unit ∉ seen := fun old => by
            obtain ⟨up, edge, below⟩ := climbed.above unit old unit rfl
            exact ranked.not_below edge below
          rw [climb, parentsOf_listGroups ranked]
          cases found : groups.find unit with
          | none =>
              refine ⟨climbed.distinct, fun id => ⟨.inl, fun held => held.resolve_right ?_⟩⟩
              rintro ⟨low, same, isRow, below⟩
              obtain rfl := Option.some.inj same
              have absent := Table.find_eq_none.mp found
              rcases below.head with rfl | ⟨up, edge, -⟩
              · obtain ⟨group, member, same⟩ := List.mem_map.mp isRow
                exact absent group member same
              · obtain ⟨group, member, same, -⟩ := parentIn_eq_some.mp edge
                exact absent group member same
          | some group =>
              have isUnit := Table.key_of_find found
              have member := Table.mem_of_find found
              have stored : unit ∈ groups.rows.map Group.id :=
                List.mem_map.mpr ⟨group, member, isUnit⟩
              have up : group.parentId = parentIn groups unit := by
                rw [← isUnit, parentIn_of_mem member]
              rw [Option.map_some, up]
              dsimp only
              rw [if_neg new]
              obtain ⟨distinct, members⟩ := induction (climbed_append climbed new stored)
                (by simp only [List.length_append, List.length_singleton]; omega)
              refine ⟨distinct, fun id => ?_⟩
              rw [members, List.mem_append, List.mem_singleton, or_assoc]
              refine or_congr_right ⟨?_, ?_⟩
              · rintro (rfl | ⟨low, edge, isRow, below⟩)
                · exact ⟨id, rfl, stored, Below.refl id⟩
                · exact ⟨unit, rfl, isRow, (Below.step edge).trans below⟩
              · rintro ⟨low, same, isRow, below⟩
                obtain rfl := Option.some.inj same
                rcases below.head with rfl | ⟨next, edge, rest⟩
                · exact .inl rfl
                · exact .inr ⟨next, edge, isRow, rest⟩

/-- The unit that holds the registered domain of a host. -/
def unitOfHost (books : Books) (host : Text) : Option GroupId :=
  (books.find (registrable (hostOf host))).bind DomainPortfolio.Domain.groupId

private theorem lookup_groupIds {rows : List DomainPortfolio.Domain}
    (distinct : (rows.map DomainPortfolio.Domain.domain).Nodup) (domain : Text) :
    (rows.filterMap fun row => row.groupId.map fun id => (row.domain, id)).lookup domain =
      (rows.find? fun row => row.domain = domain).bind DomainPortfolio.Domain.groupId := by
  induction rows with
  | nil => rfl
  | cons row rows induction =>
      obtain ⟨new, distinct⟩ := List.nodup_cons.mp distinct
      by_cases same : row.domain = domain
      · cases unit : row.groupId with
        | none =>
            have absent : rows.find? (fun row => row.domain = domain) = none := by
              refine List.find?_eq_none.mpr fun other member found => new ?_
              exact List.mem_map.mpr ⟨other, member, (of_decide_eq_true found).trans same.symm⟩
            simpa [same, unit, absent] using induction distinct
        | some id => simp [same, unit]
      · cases unit : row.groupId with
        | none => simpa [same, unit] using induction distinct
        | some id =>
            have differs : (domain == row.domain) = false := by simpa using Ne.symm same
            simpa [same, unit, List.lookup_cons, differs] using induction distinct

variable (ranked : Ranked (parentIn groups)) (books : Books)
include ranked

private theorem chain_spec (host : Text) :
    (chain (listGroups people groups) (unitsByDomain books) host).Nodup ∧
      ∀ node, (∀ id, node = some id → id ∈ groups.rows.map Group.id) →
        (node ∈ chain (listGroups people groups) (unitsByDomain books) host ↔
          Falls groups (unitOfHost books host) node) := by
  have length : (listGroups people groups).length = groups.rows.length := by
    simpa using (listGroups_perm people ranked).length_eq
  have start : Climbed groups (unitOfHost books host) [] :=
    ⟨List.nodup_nil, List.nil_subset _, fun _ held => by cases held⟩
  have enough : groups.rows.length <
      (listGroups people groups).length + 1 + ([] : List GroupId).length := by simp [length]
  obtain ⟨distinct, members⟩ := @climb_spec people groups ranked _ _ _ start enough
  have unit : (unitsByDomain books).lookup (registrable (hostOf host)) = unitOfHost books host :=
    lookup_groupIds books.named _
  rw [chain, unit]
  generalize climb _ _ _ _ = seen at distinct members
  split
  · rename_i empty
    have none_above : Falls groups (unitOfHost books host) none := fun low isUnit isRow => by
      have held := (members low).mpr (.inr ⟨low, isUnit, isRow, Below.refl low⟩)
      rw [empty] at held
      cases held
    refine ⟨List.nodup_singleton none, fun node stored => ?_⟩
    rw [List.mem_singleton]
    cases node with
    | none => exact iff_of_true rfl none_above
    | some id =>
        refine iff_of_false (Option.some_ne_none id) fun ⟨low, isUnit, below⟩ => ?_
        have held := (members id).mpr (.inr ⟨low, isUnit, stored id rfl, below⟩)
        rw [empty] at held
        cases held
  · rename_i nonempty
    refine ⟨distinct.map (Option.some_injective GroupId), fun node stored => ?_⟩
    cases node with
    | none =>
        refine iff_of_false (by simp) fun outside => ?_
        obtain ⟨id, held⟩ := List.exists_mem_of_ne_nil seen nonempty
        rcases (members id).mp held with impossible | ⟨low, isUnit, isRow, below⟩
        · cases impossible
        · rcases below.head with rfl | ⟨up, edge, -⟩
          · exact outside low isUnit isRow
          · obtain ⟨group, member, rfl, -⟩ := parentIn_eq_some.mp edge
            exact outside _ isUnit (List.mem_map_of_mem member)
    | some id =>
        rw [List.mem_map_of_injective (Option.some_injective GroupId), members]
        constructor
        · rintro (impossible | ⟨low, isUnit, -, below⟩)
          · cases impossible
          · exact ⟨low, isUnit, below⟩
        · exact fun ⟨low, isUnit, below⟩ => .inr ⟨low, isUnit, stored id rfl, below⟩

end Chain

/-! ## Figures as sums -/

instance : Zero Bucket := ⟨blank⟩

instance : Add Bucket := ⟨fun left right =>
  { scanned := left.scanned + right.scanned
    ratings := fun name => left.ratings name + right.ratings name
    critical := left.critical + right.critical
    high := left.high + right.high
    monitors := left.monitors + right.monitors
    monitorsEnabled := left.monitorsEnabled + right.monitorsEnabled
    events := fun name => left.events name + right.events name }⟩

namespace Bucket

@[simp] theorem zero_eq : (0 : Bucket) = blank := rfl

theorem add_eq (left right : Bucket) : left + right =
    { scanned := left.scanned + right.scanned
      ratings := fun name => left.ratings name + right.ratings name
      critical := left.critical + right.critical
      high := left.high + right.high
      monitors := left.monitors + right.monitors
      monitorsEnabled := left.monitorsEnabled + right.monitorsEnabled
      events := fun name => left.events name + right.events name } := rfl

end Bucket

instance : AddCommMonoid Bucket where
  add_assoc _ _ _ := by simp [Bucket.add_eq, Nat.add_assoc]
  zero_add _ := by simp [Bucket.add_eq, blank]
  add_zero _ := by simp [Bucket.add_eq, blank]
  add_comm _ _ := by simp [Bucket.add_eq, Nat.add_comm]
  nsmul := nsmulRec

private theorem update_add (table : Text → Nat) (name : Text) (count : Nat) :
    Function.update table name (table name + count) =
      fun other => table other + Function.update (fun _ => 0) name count other := by
  funext other
  by_cases same : other = name
  · rw [same, Function.update_self, Function.update_self]
  · rw [Function.update_of_ne same, Function.update_of_ne same, Nat.add_zero]

private theorem addScan_eq (made : Summary) (bucket : Bucket) :
    addScan made bucket = bucket + addScan made blank := by
  simp [addScan, Bucket.add_eq, blank, update_add]

private theorem addMonitor_eq (monitor : Monitors.Stored) (bucket : Bucket) :
    addMonitor monitor bucket = bucket + addMonitor monitor blank := by
  simp [addMonitor, Bucket.add_eq, blank]

private theorem addEvents_eq (severity : Text) (count : Nat) (bucket : Bucket) :
    addEvents severity count bucket = bucket + addEvents severity count blank := by
  simp [addEvents, Bucket.add_eq, blank, update_add]

/-! ## What a unit has of them -/

section Shares

variable (records : Records)

def Records.unitOfMonitor (monitor : Monitors.Stored) : Option GroupId :=
  unitOfHost records.books (records.targetOf monitor)

/-- The unit of counted events: that of their monitor, where it is listed. -/
def Records.unitOfEvents (row : (MonitorId × Text) × Nat) : Option GroupId :=
  (records.listed.find? fun monitor => monitor.id = row.1.1).bind records.unitOfMonitor

/-- What falls under a unit, or under none: the hosts, the monitors and the events. -/
noncomputable def Records.under (hosts : List (Text × Summary))
    (events : List ((MonitorId × Text) × Nat)) (node : Option GroupId) : Bucket :=
  let falls := fun unit => Falls records.books.portfolio.groups unit node
  sumOf (fun host => addScan host.2 blank) (fun host => falls (unitOfHost records.books host.1)) hosts +
    sumOf (fun monitor => addMonitor monitor blank) (fun monitor =>
      falls (records.unitOfMonitor monitor)) records.listed +
    sumOf (fun row => addEvents row.1.2 row.2 blank) (fun row => falls (records.unitOfEvents row)) events

def Records.totals (hosts : List (Text × Summary)) (events : List ((MonitorId × Text) × Nat)) :
    Bucket :=
  (hosts.map fun host => addScan host.2 blank).sum +
    (records.listed.map fun monitor => addMonitor monitor blank).sum +
    (events.map fun row => addEvents row.1.2 row.2 blank).sum

/-- Every unit has the figures of what falls under it; the units at the top and what is unassigned
have those of all. -/
structure Organisation.AddsUp (records : Records) (today : Int) (hosts : List (Text × Summary))
    (events : List ((MonitorId × Text) × Nat)) (page : Organisation) : Prop where
  security : ∀ figures ∈ page.units,
    figures.security = records.under hosts events (some figures.unit.group.id)
  whole : ((page.units.filter fun figures => figures.unit.depth = 0).map UnitFigures.security).sum +
    page.unassigned = records.totals hosts events
  registration : ∀ figures ∈ page.units, figures.registration = some
    (sumOf DomainPortfolio.Counted.share (fun item => Falls records.books.portfolio.groups item.groupId
      (some figures.unit.group.id)) (records.shown today records.books.portfolio.domains))

variable {records}

private theorem lookup_monitorUnits (monitors : List Monitors.Stored)
    (nodes : Monitors.Stored → List (Option GroupId)) (id : MonitorId) :
    (monitors.map fun monitor => (monitor.id, nodes monitor)).lookup id =
      (monitors.find? fun monitor => monitor.id = id).map nodes := by
  induction monitors with
  | nil => rfl
  | cons monitor monitors induction =>
      by_cases same : monitor.id = id
      · simp [same]
      · have differs : (id == monitor.id) = false := by simpa using Ne.symm same
        simpa [same, List.lookup_cons, differs] using induction

variable (ranked : Ranked (parentIn records.books.portfolio.groups))
include ranked

private theorem securityOf_eq (hosts : List (Text × Summary))
    (events : List ((MonitorId × Text) × Nat)) {node : Option GroupId}
    (stored : ∀ id, node = some id → id ∈ records.books.portfolio.groups.rows.map Group.id) :
    securityOf records hosts events node = records.under hosts events node := by
  have distinct (host : Text) : (chain records.units (unitsByDomain records.books) host).Nodup :=
    (chain_spec ranked records.books host).1
  have falls (host : Text) : node ∈ chain records.units (unitsByDomain records.books) host ↔
      Falls records.books.portfolio.groups (unitOfHost records.books host) node :=
    (chain_spec ranked records.books host).2 node stored
  rw [securityOf, roll_apply ?_ fun row bucket => addEvents_eq row.1.2 row.2 bucket,
    roll_apply (fun monitor _ => distinct _) addMonitor_eq,
    roll_apply (fun host _ => distinct _) fun host bucket => addScan_eq host.2 bucket]
  · rw [Records.under, ← Bucket.zero_eq, zero_add]
    congr 1
    · congr 1
      · exact sumOf_congr fun host _ => falls host.1
      · exact sumOf_congr fun monitor _ => falls (records.targetOf monitor)
    · refine sumOf_congr fun row _ => ?_
      rw [lookup_monitorUnits, Records.unitOfEvents]
      cases records.listed.find? fun monitor => monitor.id = row.1.1 with
      | none =>
          rw [Option.map_none, Option.getD_none, List.mem_singleton, Option.bind_none]
          cases node with
          | none => exact iff_of_true rfl fun low impossible => nomatch impossible
          | some id =>
              exact iff_of_false (Option.some_ne_none id) fun ⟨low, impossible, _⟩ =>
                nomatch impossible
      | some monitor => exact falls (records.targetOf monitor)
  · intro row _
    rw [lookup_monitorUnits]
    cases records.listed.find? fun monitor => monitor.id = row.1.1 with
    | none => exact List.nodup_singleton none
    | some monitor => exact distinct (records.targetOf monitor)

private theorem stored_of_mem_units {entry : DomainPortfolio.Listed} (member : entry ∈ records.units)
    (id : GroupId) (same : some entry.group.id = some id) :
    id ∈ records.books.portfolio.groups.rows.map Group.id := by
  rw [← Option.some.inj same]
  have perm := listGroups_perm records.books.people ranked
  exact List.mem_map_of_mem (perm.mem_iff.mp (List.mem_map_of_mem member))

omit ranked in
private theorem regrouped (a b c d e f : Bucket) :
    a + b + c + (d + e + f) = a + d + (b + e) + (c + f) := by
  abel

private theorem addsUp_figuresOf
    (named : ∀ group ∈ records.books.portfolio.groups.rows, group.name ≠ []) (now : DateTime)
    (days today : Int) (hosts : List (Text × Summary)) (events : List ((MonitorId × Text) × Nat)) :
    (figuresOf records now days today hosts events).AddsUp records today hosts events where
  security figures member := by
    obtain ⟨entry, isEntry, rfl⟩ := List.mem_map.mp member
    exact securityOf_eq ranked hosts events (stored_of_mem_units ranked isEntry)
  whole := by
    have each : ((figuresOf records now days today hosts events).units.filter fun figures =>
          figures.unit.depth = 0).map UnitFigures.security =
        (tops records.units).map fun entry =>
          records.under hosts events (some entry.group.id) := by
      rw [figuresOf, List.filter_map, List.map_map]
      refine List.map_congr_left fun entry isTop => ?_
      exact securityOf_eq ranked hosts events
        (stored_of_mem_units ranked (List.mem_of_mem_filter isTop))
    have outside : (figuresOf records now days today hosts events).unassigned =
        records.under hosts events none :=
      securityOf_eq ranked hosts events fun id impossible => nomatch impossible
    have hostSum := @sum_ends records.books.people _ ranked _ _ _
      (fun host : Text × Summary => addScan host.2 blank)
      (fun host => unitOfHost records.books host.1) hosts
    have monitorSum := @sum_ends records.books.people _ ranked _ _ _
      (fun monitor => addMonitor monitor blank) records.unitOfMonitor records.listed
    have eventSum := @sum_ends records.books.people _ ranked _ _ _
      (fun row : (MonitorId × Text) × Nat => addEvents row.1.2 row.2 blank) records.unitOfEvents events
    rw [each, outside, Records.totals, ← hostSum, ← monitorSum, ← eventSum]
    simp only [Records.under, List.sum_map_add]
    exact regrouped _ _ _ _ _ _
  registration figures member := by
    obtain ⟨entry, isEntry, rfl⟩ := List.mem_map.mp member
    have byName : (DomainPortfolio.byName records.books.portfolio.domains).Perm
        records.books.portfolio.domains := List.perm_insertionSort _ _
    have counts := @DomainPortfolio.addsUp_summary records.books.people _ ranked named
      (records.books.book.listContacts records.accounts) today records.answers
      (DomainPortfolio.byName records.books.portfolio.domains)
    dsimp only
    cases found : (DomainPortfolio.summary (records.shown today
        (DomainPortfolio.byName records.books.portfolio.domains)) records.units).groups.find?
          fun counted => counted.unit.group.id = entry.group.id with
    | none =>
        have missing := List.find?_eq_none.mp found
        exact absurd (decide_eq_true rfl) (missing _ (List.mem_map_of_mem isEntry))
    | some counted =>
        have same : counted.unit.group.id = entry.group.id := by simpa using List.find?_some found
        rw [Option.map_some, counts.subtree counted (List.mem_of_find?_eq_some found), same]
        exact congrArg some (sumOf_perm (byName.map _))

end Shares

/-! ## The page -/

section Loading

variable {advice : Advice} {data : ScanKey → Entries} {world : World advice} {stored : Stored}

private theorem keys_makeMissing {keys : List ScanKey} {cache after : Cache}
    {made : List (ScanKey × Summary)} (held : ∀ key ∈ keys, stored.Holds key)
    (loaded : makeMissing advice data world stored keys cache = some (made, after)) :
    made.map Prod.fst = keys := by
  induction keys generalizing cache made after with
  | nil =>
      obtain ⟨rfl, -⟩ := Prod.mk.inj (Option.some.inj loaded)
      rfl
  | cons key keys induction =>
      obtain ⟨scan, isScan, same⟩ := Stored.getScan_of_holds (held key List.mem_cons_self)
      simp only [makeMissing, isScan, Option.bind_eq_some_iff, Option.map_eq_some_iff] at loaded
      obtain ⟨first, -, ⟨rest, final⟩, later, whole⟩ := loaded
      obtain ⟨rfl, -⟩ := Prod.mk.inj whole
      exact congrArg _ (induction (fun other member => held other (List.mem_cons_of_mem key member))
        later)

private theorem lookup_load {keys : List ScanKey} {cache after : Cache}
    {summaries : List (ScanKey × Summary)} (held : ∀ key ∈ keys, stored.Holds key)
    (loaded : load advice data world stored keys cache = some (summaries, after)) {key : ScanKey}
    (member : key ∈ keys) : ∃ made, summaries.lookup key = some made := by
  obtain ⟨⟨made, final⟩, missing, whole⟩ := Option.map_eq_some_iff.mp loaded
  obtain ⟨rfl, -⟩ := Prod.mk.inj whole
  have present := keys_makeMissing (fun other isOther => held other (List.mem_of_mem_filter isOther))
    missing
  rw [← Option.isSome_iff_exists, List.lookup_isSome_iff]
  cases found : cache.lookup (.scan key) with
  | some cached =>
      have here : (key, cached.summary) ∈ keys.filterMap fun key =>
          (cache.lookup (.scan key)).map fun cached => (key, cached.summary) :=
        List.mem_filterMap.mpr ⟨key, member, by rw [found]; rfl⟩
      exact ⟨_, List.mem_append_left _ here, beq_self_eq_true key⟩
  | none =>
      have here : key ∈ made.map Prod.fst :=
        present ▸ List.mem_filter.mpr ⟨member, by rw [found]; rfl⟩
      obtain ⟨entry, isEntry, rfl⟩ := List.mem_map.mp here
      exact ⟨entry, List.mem_append_right _ isEntry, beq_self_eq_true entry.1⟩

end Loading

/-- Every host with a scan in the period has a summary, and the figures add up over these hosts, the
monitors and the events of the last week. -/
def Totalled (advice : Advice) (data : ScanKey → Entries) (world : World advice) (records : Records)
    (days : Int) (now : DateTime) (today : Int) (cache : Cache) : Prop :=
  ∀ page after, organisation advice data world records days now today cache = .ok (page, after) →
    ∃ start week summaries, startOf now (clampDays days) = some start ∧ startOf now 7 = some week ∧
      load advice data world records.toStored (fromKeys ((records.current now start).map Prod.snd))
        cache = some (summaries, after) ∧
      (summarized (records.current now start) summaries).map Prod.fst =
        (records.current now start).map Prod.fst ∧
      page.AddsUp records today (summarized (records.current now start) summaries)
        (records.counted week.isoformat)

private theorem totalled (advice : Advice) (data : ScanKey → Entries) (world : World advice)
    {records : Records} (ranked : Ranked (parentIn records.books.portfolio.groups))
    (named : ∀ group ∈ records.books.portfolio.groups.rows, group.name ≠ []) (days : Int)
    (now : DateTime) (today : Int) (cache : Cache) :
    Totalled advice data world records days now today cache := by
  intro page after answer
  unfold organisation at answer
  split at answer
  · cases answer
  · rename_i start isStart
    dsimp only at answer
    split at answer
    · cases answer
    · rename_i summaries later loaded
      split at answer
      · cases answer
      · rename_i week isWeek
        obtain ⟨rfl, rfl⟩ := Prod.mk.inj (Except.ok.inj answer)
        refine ⟨start, week, summaries, isStart, isWeek, loaded, ?_,
          addsUp_figuresOf ranked named now days today _ _⟩
        have held : ∀ key ∈ fromKeys ((records.current now start).map Prod.snd),
            records.toStored.Holds key := by
          intro key member
          obtain ⟨entry, listed, rfl⟩ := List.mem_map.mp (mem_fromKeys.mp member)
          exact holds_of_mem_latestScans listed
        have present : ∀ entry ∈ records.current now start, ∃ made,
            summaries.lookup entry.2 = some made := fun entry member =>
          lookup_load held loaded (mem_fromKeys.mpr (List.mem_map_of_mem member))
        rw [summarized, List.map_filterMap, ← List.filterMap_eq_map]
        refine List.filterMap_congr fun entry member => ?_
        obtain ⟨made, found⟩ := present entry member
        rw [found]
        rfl

/-- In a forest of named units the figures of the page add up, and so do the counts of any domains. -/
theorem organisation_addsUp (advice : Advice) (data : ScanKey → Entries) (world : World advice)
    (records : Records) (ranked : Ranked (parentIn records.books.portfolio.groups))
    (named : ∀ group ∈ records.books.portfolio.groups.rows, group.name ≠ []) :
    (∀ days now today cache, Totalled advice data world records days now today cache) ∧
      ∀ today rows, (DomainPortfolio.summary (records.shown today rows) records.units).AddsUp
        records.books.portfolio.groups (records.shown today rows) :=
  ⟨totalled advice data world ranked named, fun today rows =>
    DomainPortfolio.addsUp_summary ranked named _ today records.answers rows⟩

private theorem distinct_orphaned : [1, 2].Nodup := by decide

/-- A unit whose parent is gone, and one below it. -/
def orphaned : Groups where
  rows :=
    [{ id := 1, name := "Holding".toList, parentId := some 9, expectedRegistrar := none,
       notifyEmails := none, contactId := none, monitorMinutes := none },
     { id := 2, name := "Shop".toList, parentId := some 1, expectedRegistrar := none,
       notifyEmails := none, contactId := none, monitorMinutes := none }]
  distinct := distinct_orphaned

private theorem issued_orphaned : ∀ group ∈ orphaned.rows, group.id ≤ 2 := by decide

private theorem counted_shop : ∀ id ∈ [1], id ≤ 1 := by decide

/-- One scanned domain in the lower of two units. -/
def scannedShop : Records where
  scans := oneScan.scans
  books :=
    { Books.empty with
      portfolio :=
        { groups := orphaned
          lastId := 2
          domains :=
            [{ id := 1, domain := "a.nl".toList, groupId := some 2, lifecycle := .keep,
               threatIntel := false, contactId := none, note := none, createdBy := none }]
          issued := issued_orphaned }
      lastDomain := 1
      keyed := List.nodup_singleton _
      named := List.nodup_singleton _
      counted := counted_shop }
  keyed := oneScan.keyed
  accounts := []
  answers domain := DomainPortfolio.Registry.Row.added domain .keep
  monitors := []
  domainOf _ := []
  monitorEvents := []

example : ((organisation twoCritical (fun _ => []) (World.start [] ()) scannedShop 90 inMarch 0
    []).toOption.map fun answer => answer.1.units.map fun figures =>
      (figures.unit.group.id, figures.unit.depth, figures.security.scanned,
        figures.security.critical)) = some [(1, 0, 1, 2), (2, 1, 1, 2)] := by
  decide +kernel

private theorem ranked_orphaned : Ranked (parentIn orphaned) := by
  refine ⟨fun id => if id = 2 then 2 else if id = 1 then 1 else 0, fun child up edge => ?_⟩
  obtain ⟨group, member, rfl, parent⟩ := parentIn_eq_some.mp edge
  simp only [orphaned, List.mem_cons, List.not_mem_nil, or_false] at member
  rcases member with rfl | rfl
  · obtain rfl := Option.some.inj parent
    decide
  · obtain rfl := Option.some.inj parent
    decide

theorem scannedShop_addsUp :
    (∀ days now today cache, Totalled twoCritical (fun _ => []) (World.start [] ()) scannedShop days
        now today cache) ∧
      ∀ today rows, (DomainPortfolio.summary (scannedShop.shown today rows) scannedShop.units).AddsUp
        orphaned (scannedShop.shown today rows) :=
  organisation_addsUp twoCritical (fun _ => []) (World.start [] ()) scannedShop ranked_orphaned
    (by decide)

end Management
end DomainLens
