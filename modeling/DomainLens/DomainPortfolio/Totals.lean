import DomainLens.DomainPortfolio.Export
import DomainLens.DomainPortfolio.Listing
import DomainLens.Library.Rollup

/-!
# The counts of the overview

Domains are counted by what is flagged of them, for every unit and all below it.  The units at the top
and the domains of no unit make up the whole portfolio.
-/

namespace DomainLens
namespace DomainPortfolio

open Python Forest Rollup

/-! ## Flags -/

inductive Flag where
  | attention
  | expiring
  | move
  | unmeasured
  | intel
  | claimable
  | useUnmeasured
  | wanted
  | dnsDead
deriving DecidableEq

/-- `_ATTENTION_PHASES`. -/
def attentionPhases : List Registry.Phase :=
  [.quarantine, .pendingDelete, .redemption, .notInDns, .notRegistered]

/-- The days of `_SOON`. -/
def soonDays : Int := 30

/-- The days to an expiry, where they are known. -/
def Expiry.days : Expiry → Option Int
  | .known days => days
  | .notPublished | .unmeasured => none

/-- The flags of `_enrich`. -/
def flagsOf (shown : Shown) : List Flag :=
  let held := shown.lifecycle.held
  let phase := shown.answers.phase
  let stale := (truthyText shown.answers.lastError).isSome && phase.isSome
  (if held && phase.any (· ∈ attentionPhases) then [Flag.attention] else []) ++
  (if held && shown.expiry.days.any (· ≤ soonDays) then [Flag.expiring] else []) ++
  (if shown.transfer = .move then [Flag.move] else []) ++
  (if shown.threatIntel = .missing then [Flag.intel] else []) ++
  (if shown.lifecycle = .claim then [Flag.wanted] else []) ++
  (if shown.lifecycle = .claim ∧ phase = some .notRegistered then [Flag.claimable] else []) ++
  (if held && shown.answers.dnsState = some .noAnswer then [Flag.dnsDead]
    else if held && usageState shown.answers = .unmeasured then [Flag.useUnmeasured] else []) ++
  (if phase = none ∨ stale then [Flag.unmeasured] else [])

/-! ## Counts -/

structure Counted where
  groupId : Option GroupId
  group : Option Text
  flags : List Flag

/-- A domain of `list_all`, with its unit. -/
def countedOf (listed : List Listed) (people : List Person) (today : Int)
    (answers : Text → Registry.Row) (row : Domain) : Counted :=
  let shown := enrich listed people today (answers row.domain) row
  { groupId := row.groupId, group := shown.unit, flags := flagsOf shown }

/-- How many domains there are, and how many with each flag. -/
@[ext]
structure Counts where
  total : Nat
  flagged : Flag → Nat

/-- `counts`. -/
def counts (items : List Counted) : Counts where
  total := items.length
  flagged flag := (items.filter fun item => flag ∈ item.flags).length

/-- A unit with the counts of its own domains, and those with the domains of the units below it. -/
structure UnitCounts where
  unit : Listed
  own : Counts
  subtree : Counts

/-- What `summary` returns. -/
structure Overview where
  total : Counts
  groups : List UnitCounts
  ungrouped : Counts

/-- `descendants` of a listing that is at hand. -/
def descendantsOf (listed : List Listed) (id : GroupId) : List GroupId :=
  let rows := listed.map Listed.group
  descendantsLoop rows (rows.length + 1) [id] [id]

/-- `summary`. -/
def summary (domains : List Counted) (groups : List Listed) : Overview where
  total := counts domains
  groups := groups.map fun listed =>
    let below := descendantsOf groups listed.group.id
    { unit := listed
      own := counts (domains.filter fun item => item.groupId = some listed.group.id)
      subtree := counts (domains.filter fun item => item.groupId.any (· ∈ below)) }
  ungrouped := counts (domains.filter fun item => (truthyText item.group).isNone)

/-! ## Counts as sums -/

instance : Zero Counts := ⟨{ total := 0, flagged := fun _ => 0 }⟩

instance : Add Counts := ⟨fun left right =>
  { total := left.total + right.total, flagged := fun flag => left.flagged flag + right.flagged flag }⟩

namespace Counts

@[simp] theorem total_zero : (0 : Counts).total = 0 := rfl

@[simp] theorem flagged_zero (flag : Flag) : (0 : Counts).flagged flag = 0 := rfl

@[simp] theorem total_add (left right : Counts) : (left + right).total = left.total + right.total :=
  rfl

@[simp] theorem flagged_add (left right : Counts) (flag : Flag) :
    (left + right).flagged flag = left.flagged flag + right.flagged flag := rfl

end Counts

instance : AddCommMonoid Counts where
  add_assoc _ _ _ := by ext <;> simp [add_assoc]
  zero_add _ := by ext <;> simp
  add_zero _ := by ext <;> simp
  add_comm _ _ := by ext <;> simp [add_comm]
  nsmul := nsmulRec

def Counted.share (item : Counted) : Counts where
  total := 1
  flagged flag := if flag ∈ item.flags then 1 else 0

theorem counts_eq_sum (items : List Counted) : counts items = (items.map Counted.share).sum := by
  induction items with
  | nil => rfl
  | cons item items induction =>
      rw [List.map_cons, List.sum_cons, ← induction]
      ext
      · simp [counts, Counted.share, add_comm]
      · rename_i flag
        by_cases flagged : flag ∈ item.flags <;>
          simp [counts, Counted.share, flagged, add_comm]

open Classical in
theorem counts_filter {keep : Counted → Bool} {takes : Counted → Prop} {items : List Counted}
    (same : ∀ item ∈ items, (keep item = true ↔ takes item)) :
    counts (items.filter keep) = sumOf Counted.share takes items := by
  rw [counts_eq_sum, sumOf, List.filter_congr fun item member => ?_]
  rw [Bool.eq_iff_iff, decide_eq_true_eq]
  exact same item member

/-! ## Where a domain falls -/

/-- A unit of the top is one, or none: a domain falls under a unit when its own is that one or below
it, and under none when its own is not stored. -/
def Falls (groups : Groups) (unit : Option GroupId) : Option GroupId → Prop
  | some high => ∃ low, unit = some low ∧ Below (parentIn groups) low high
  | none => ∀ low, unit = some low → low ∉ groups.rows.map Group.id

def tops (listed : List Listed) : List Listed := listed.filter fun entry => entry.depth = 0

section Forest

variable {people : List Nat} {groups : Groups}

private theorem depth_walk {rows : List Group} {depth : Nat} {parent : Option GroupId}
    {above : Inherited} {seen : List GroupId} {entry : Listed}
    (member : entry ∈ walk people rows depth parent above seen) :
    entry.depth = above.depth ∧ shownParent rows entry.group = parent ∨
      above.depth < entry.depth ∧ ∃ up, shownParent rows entry.group = some up := by
  induction depth generalizing parent above seen with
  | zero => cases member
  | succ depth induction =>
      obtain ⟨group, isChild, listed⟩ := List.mem_flatMap.mp member
      split at listed
      · cases listed
      · rcases List.mem_cons.mp listed with rfl | later
        · exact .inl ⟨rfl, (mem_childrenOf.mp isChild).2⟩
        · rcases induction later with ⟨same, under⟩ | ⟨deeper, under⟩
          · exact .inr ⟨same ▸ Nat.lt_succ_self above.depth, _, under⟩
          · exact .inr ⟨(Nat.lt_succ_self above.depth).trans deeper, under⟩

theorem depth_eq_zero_iff {entry : Listed} (member : entry ∈ listGroups people groups) :
    entry.depth = 0 ↔ shownParent groups.rows entry.group = none := by
  rcases depth_walk member with ⟨same, under⟩ | ⟨deeper, up, under⟩
  · exact iff_of_true same under
  · exact iff_of_false (Nat.ne_of_gt deeper) (by rw [under]; exact Option.some_ne_none up)

private theorem below_shownIn_iff {low high : GroupId} (stored : high ∈ groups.rows.map Group.id) :
    Below (parentIn groups) low high ↔ Below (shownIn groups) low high := by
  constructor
  · intro below
    induction below using Relation.ReflTransGen.head_induction_on with
    | refl => exact Below.refl high
    | head edge rest induction =>
        rename_i child up
        obtain ⟨group, member, rfl, parent⟩ := parentIn_eq_some.mp edge
        have isUp : up ∈ groups.rows.map Group.id := by
          rcases Below.head rest with rfl | ⟨next, edge, -⟩
          · exact stored
          · obtain ⟨row, isRow, rfl, -⟩ := parentIn_eq_some.mp edge
            exact List.mem_map_of_mem isRow
        have shown := (shownIn_of_mem member).trans (shownParent_eq_some.mpr ⟨parent, isUp⟩)
        exact (Below.step shown).trans induction
  · intro below
    refine Relation.ReflTransGen.mono (fun child up edge => ?_) low high below
    obtain ⟨group, member, rfl, shown⟩ := shownIn_eq_some.mp edge
    exact (parentIn_of_mem member).trans (shownParent_eq_some.mp shown).1

private theorem one_top (ranked : Ranked (parentIn groups)) {group : Group}
    (member : group ∈ groups.rows) : ∃ top ∈ groups.rows, shownParent groups.rows top = none ∧
      ∀ other ∈ groups.rows, shownParent groups.rows other = none →
        (Below (parentIn groups) group.id other.id ↔ other.id = top.id) := by
  obtain ⟨top, isTop, first, below⟩ := exists_top (ranked_shownIn ranked) member
  -- Nothing but itself is above a unit of the top.
  have highest : ∀ low ∈ groups.rows, shownParent groups.rows low = none → ∀ high,
      Below (shownIn groups) low.id high → low.id = high := by
    intro low isLow none high under
    rcases under.head with same | ⟨up, edge, -⟩
    · exact same
    · rw [shownIn_of_mem isLow, none] at edge
      cases edge
  refine ⟨top, isTop, first, fun other isOther second => ?_⟩
  rw [below_shownIn_iff (List.mem_map_of_mem isOther)]
  constructor
  · intro under
    rcases below.total under with up | up
    · exact (highest top isTop first _ up).symm
    · exact highest other isOther second _ up
  · exact fun same => same ▸ below

private theorem mem_tops (ranked : Ranked (parentIn groups)) {id : GroupId} :
    id ∈ (tops (listGroups people groups)).map (·.group.id) ↔
      ∃ group ∈ groups.rows, group.id = id ∧ shownParent groups.rows group = none := by
  have perm := listGroups_perm people ranked
  rw [List.mem_map]
  constructor
  · rintro ⟨entry, isTop, rfl⟩
    obtain ⟨member, first⟩ := List.mem_filter.mp isTop
    exact ⟨entry.group, perm.mem_iff.mp (List.mem_map_of_mem member), rfl,
      (depth_eq_zero_iff member).mp (of_decide_eq_true first)⟩
  · rintro ⟨group, isRow, rfl, first⟩
    obtain ⟨entry, member, rfl⟩ := List.mem_map.mp (perm.mem_iff.mpr isRow)
    exact ⟨entry, List.mem_filter.mpr
      ⟨member, decide_eq_true ((depth_eq_zero_iff member).mpr first)⟩, rfl⟩

private theorem nodup_tops (ranked : Ranked (parentIn groups)) :
    ((tops (listGroups people groups)).map (·.group.id)).Nodup := by
  have ids : ((listGroups people groups).map (·.group.id)).Nodup := by
    have perm := (listGroups_perm people ranked).map Group.id
    rw [List.map_map] at perm
    exact perm.nodup_iff.mpr groups.distinct
  exact (List.filter_sublist.map _).nodup ids

def ends (listed : List Listed) : List (Option GroupId) :=
  (tops listed).map (fun entry => some entry.group.id) ++ [none]

theorem nodup_ends (ranked : Ranked (parentIn groups)) :
    (ends (listGroups people groups)).Nodup := by
  have ids := (@nodup_tops people groups ranked).map (Option.some_injective GroupId)
  rw [List.map_map] at ids
  rw [ends, List.nodup_append]
  refine ⟨ids, List.nodup_singleton none, fun left isLeft right isRight same => ?_⟩
  obtain ⟨entry, -, rfl⟩ := List.mem_map.mp isLeft
  rw [List.mem_singleton.mp isRight] at same
  cases same

/-- Whatever unit a domain has, it falls under one unit of the top or under none. -/
theorem falls_once (ranked : Ranked (parentIn groups)) (unit : Option GroupId) :
    ∃ node ∈ ends (listGroups people groups), ∀ other ∈ ends (listGroups people groups),
      Falls groups unit other ↔ other = node := by
  have mem_ends (id : GroupId) : some id ∈ ends (listGroups people groups) ↔
      id ∈ (tops (listGroups people groups)).map (·.group.id) := by
    simp [ends]
  have last : none ∈ ends (listGroups people groups) := by simp [ends]
  by_cases stored : ∃ group ∈ groups.rows, unit = some group.id
  · obtain ⟨group, member, rfl⟩ := stored
    obtain ⟨top, isTop, first, only⟩ := one_top ranked member
    refine ⟨some top.id, (mem_ends _).mpr ((mem_tops ranked).mpr ⟨top, isTop, rfl, first⟩),
      fun other isOther => ?_⟩
    cases other with
    | none =>
        refine iff_of_false (fun outside => ?_) (Option.some_ne_none _).symm
        exact outside group.id rfl (List.mem_map_of_mem member)
    | some id =>
        obtain ⟨row, isRow, rfl, second⟩ := (mem_tops ranked).mp ((mem_ends id).mp isOther)
        rw [Option.some_inj, ← only row isRow second]
        exact ⟨fun ⟨low, same, below⟩ => Option.some.inj same ▸ below,
          fun below => ⟨group.id, rfl, below⟩⟩
  · refine ⟨none, last, fun other isOther => ?_⟩
    have outside : ∀ low, unit = some low → low ∉ groups.rows.map Group.id := by
      rintro low rfl isLow
      obtain ⟨group, member, rfl⟩ := List.mem_map.mp isLow
      exact stored ⟨group, member, rfl⟩
    cases other with
    | none => exact iff_of_true outside rfl
    | some id =>
        refine iff_of_false (fun ⟨low, same, below⟩ => ?_) (Option.some_ne_none id)
        obtain ⟨row, isRow, rfl, -⟩ := (mem_tops ranked).mp ((mem_ends id).mp isOther)
        rcases below.head with rfl | ⟨up, edge, -⟩
        · exact outside _ same (List.mem_map_of_mem isRow)
        · obtain ⟨group, member, rfl, -⟩ := parentIn_eq_some.mp edge
          exact outside _ same (List.mem_map_of_mem member)

theorem sum_ends (ranked : Ranked (parentIn groups)) {Item Amount : Type*} [AddCommMonoid Amount]
    (share : Item → Amount) (unit : Item → Option GroupId) (items : List Item) :
    ((tops (listGroups people groups)).map fun entry =>
        sumOf share (fun item => Falls groups (unit item) (some entry.group.id)) items).sum +
      sumOf share (fun item => Falls groups (unit item) none) items = (items.map share).sum := by
  rw [← sum_sumOf (@nodup_ends people groups ranked)
    (fun node item => Falls groups (unit item) node) fun item _ => falls_once ranked (unit item)]
  rw [ends, List.map_append, List.sum_append, List.map_map]
  simp [Function.comp_def]

end Forest

/-! ## The counts of a tree -/

/-- The counts of a unit with those below it are those of the domains that fall under it; the units at
the top and the domains of none have the counts of all. -/
structure Overview.AddsUp (groups : Groups) (domains : List Counted) (overview : Overview) : Prop where
  subtree : ∀ counted ∈ overview.groups, counted.subtree =
    sumOf Counted.share (fun item => Falls groups item.groupId (some counted.unit.group.id)) domains
  whole : ((overview.groups.filter fun counted => counted.unit.depth = 0).map UnitCounts.subtree).sum +
    overview.ungrouped = overview.total

section Summary

variable {people : List Nat} {groups : Groups}

private theorem path_walk {rows : List Group} {depth : Nat} {parent : Option GroupId}
    {above : Inherited} {seen : List GroupId} {entry : Listed}
    (member : entry ∈ walk people rows depth parent above seen) :
    ∃ names, entry.path = names ++ [entry.group.name] := by
  induction depth generalizing parent above seen with
  | zero => cases member
  | succ depth induction =>
      obtain ⟨group, -, listed⟩ := List.mem_flatMap.mp member
      split at listed
      · cases listed
      · rcases List.mem_cons.mp listed with rfl | later
        · exact ⟨above.path, rfl⟩
        · exact induction later

private theorem pathText_ne_nil {names : List Text} {name : Text} (named : name ≠ []) :
    pathText (names ++ [name]) ≠ [] := by
  rw [pathText]
  match names with
  | [] => simpa using named
  | [first] => simp [List.intercalate_cons_cons]
  | first :: next :: names => simp [List.intercalate_cons_cons]

private theorem isNone_group_iff (ranked : Ranked (parentIn groups))
    (named : ∀ group ∈ groups.rows, group.name ≠ []) (persons : List Person) (today : Int)
    (answers : Text → Registry.Row) (row : Domain) :
    (truthyText (countedOf (listGroups people groups) persons today answers row).group).isNone ↔
      Falls groups row.groupId none := by
  have perm := listGroups_perm people ranked
  have shown : (countedOf (listGroups people groups) persons today answers row).group =
      (groupOf (listGroups people groups) row).map fun entry => pathText entry.path := rfl
  rw [shown]
  cases found : groupOf (listGroups people groups) row with
  | none =>
      refine iff_of_true rfl fun low same isLow => ?_
      obtain ⟨group, isRow, rfl⟩ := List.mem_map.mp isLow
      obtain ⟨entry, member, rfl⟩ := List.mem_map.mp (perm.mem_iff.mpr isRow)
      have missing := List.find?_eq_none.mp found entry member
      exact missing (decide_eq_true same.symm)
  | some entry =>
      have member := List.mem_of_find?_eq_some found
      have same : some entry.group.id = row.groupId := by simpa using List.find?_some found
      have isRow := perm.mem_iff.mp (List.mem_map_of_mem member)
      obtain ⟨names, path⟩ := path_walk member
      refine iff_of_false ?_ fun outside =>
        outside entry.group.id same.symm (List.mem_map_of_mem isRow)
      have solid := @pathText_ne_nil names _ (named _ isRow)
      rw [← path] at solid
      simp [truthyText, Option.filter, solid]

theorem addsUp_summary (ranked : Ranked (parentIn groups))
    (named : ∀ group ∈ groups.rows, group.name ≠ []) (persons : List Person) (today : Int)
    (answers : Text → Registry.Row) (rows : List Domain) :
    let listed := listGroups people groups
    let domains := rows.map (countedOf listed persons today answers)
    (summary domains listed).AddsUp groups domains := by
  intro listed domains
  have below (id : GroupId) :
      counts (domains.filter fun item => item.groupId.any (· ∈ descendantsOf listed id)) =
        sumOf Counted.share (fun item => Falls groups item.groupId (some id)) domains := by
    refine counts_filter fun item _ => ?_
    rw [Option.any_eq_true]
    refine exists_congr fun low => and_congr_right fun _ => ?_
    rw [decide_eq_true_eq]
    exact mem_descendants people ranked
  have outside : (summary domains listed).ungrouped =
      sumOf Counted.share (fun item => Falls groups item.groupId none) domains := by
    refine counts_filter fun item isItem => ?_
    obtain ⟨row, -, rfl⟩ := List.mem_map.mp isItem
    exact isNone_group_iff ranked named persons today answers row
  constructor
  · intro counted member
    obtain ⟨entry, -, rfl⟩ := List.mem_map.mp member
    exact below entry.group.id
  · rw [outside, summary, List.filter_map, List.map_map, counts_eq_sum,
      ← @sum_ends people groups ranked _ _ _ Counted.share Counted.groupId domains, tops]
    congr 3
    funext entry
    exact below entry.group.id

end Summary

end DomainPortfolio
end DomainLens
