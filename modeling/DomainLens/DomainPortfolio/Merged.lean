import DomainLens.DomainPortfolio.Tree

/-!
# What a merge keeps

A merge as one call, without other clients in between.  Every domain of the branch ends in a stored
unit below the target: where its own unit was folded to, or in its own unit where that one moved.
-/

namespace DomainLens
namespace DomainPortfolio

open Python Forest

/-! ## The call -/

/-- How a merge fails: with `ValueError`, or at the recursion limit and rolled back. -/
inductive MergeFailure where
  | refused (problem : Text)
  | recursion
deriving DecidableEq

/-- `merge_group`, the counts left out. -/
def mergeGroup (people : List Nat) (limit : Nat) (source target : GroupId) (portfolio : Portfolio) :
    Except MergeFailure Portfolio :=
  match getGroup people portfolio.groups source, getGroup people portfolio.groups target with
  | some _, some _ =>
      if source = target then .error (.refused "A unit cannot be merged into itself".toList)
      else if target ∈ descendants people portfolio.groups source then
        .error (.refused "A unit cannot be merged into one of its own units".toList)
      else
        match fold limit source target portfolio with
        | some after => .ok after
        | none => .error .recursion
  | _, _ => .error (.refused "Unknown unit".toList)

/-- The units that are folded into the branch of the source are empty: no units, no domains and no
contact.  Such a unit occurs where the target is above the source and the names on the path between
the two are repeated below the source. -/
def EmptyInside (people : List Nat) (portfolio : Portfolio) (source target : GroupId) : Prop :=
  ∀ pair ∈ pairs portfolio.groups portfolio.groups.rows.length source target,
    pair.2 ∈ descendants people portfolio.groups source →
      unitsUnder portfolio.groups pair.1 = [] ∧
      (∀ domain ∈ portfolio.domains, domain.groupId ≠ some pair.1) ∧
      (contactIn portfolio.groups pair.1).bind truthyNumber = none

instance (people : List Nat) (portfolio : Portfolio) (source target : GroupId) :
    Decidable (EmptyInside people portfolio source target) :=
  inferInstanceAs (Decidable (∀ pair ∈ pairs portfolio.groups _ source target, _ → _))

/-! ## The statement -/

/-- Where what a unit of the branch holds goes: to the unit it was folded into, or nowhere where
there is none. -/
def Lands (before : Portfolio) (source target id dest : GroupId) : Prop :=
  Joins before source target id dest ∨
    (∀ high, ¬ Pair before.groups source target id high) ∧ dest = id

/-- What a merge does with the units, the domains and the contacts. -/
structure Merged (before after : Portfolio) (source target : GroupId) : Prop where
  /-- The source no longer exists. -/
  sourceGone : after.groups.find source = none
  /-- Units with a twin at their level are folded into it, those under them in turn. -/
  folded : ∀ low high, Joins before source target low high → after.groups.find low = none
  /-- What is left of the branch, and what it was folded into, is stored below the target. -/
  below : ∀ id dest, InBranch before.groups source id → Lands before source target id dest →
    after.groups.find dest ≠ none ∧ Below (parentIn after.groups) dest target
  /-- Every domain of the branch goes along, and no other one moves. -/
  domains : List.Forall₂ (fun was now =>
    (∀ id, was.groupId = some id → InBranch before.groups source id →
      ∃ dest, Lands before source target id dest ∧ now = { was with groupId := some dest }) ∧
    ((∀ id, was.groupId = some id → ¬ InBranch before.groups source id) → now = was))
    before.domains after.domains
  /-- Every contact of the branch goes along, except where the other unit has one of its own. -/
  contacts : ∀ id dest own, InBranch before.groups source id → Lands before source target id dest →
    contactIn before.groups id = some own →
    contactIn after.groups dest = if dest = id then some own else
      (contactIn before.groups dest).map fun contact => contact.or (truthyNumber own)
  /-- The units are a forest still, no two of one level having one name. -/
  tidy : (shapeOf after.groups).Tidy

/-! ## The proof -/

section Merge

variable {people : List Nat} {limit : Nat} {before after : Portfolio} {source target : GroupId}

/-- What `merge_group` checks before it writes. -/
private def Accepted (people : List Nat) (groups : Groups) (source target : GroupId) : Prop :=
  (getGroup people groups source).isSome ∧ (getGroup people groups target).isSome ∧
    source ≠ target ∧ target ∉ descendants people groups source

private theorem mergeGroup_cases :
    (∃ problem, mergeGroup people limit source target before = .error (.refused problem)) ∨
    Accepted people before.groups source target ∧
      mergeGroup people limit source target before =
        (fold limit source target before).elim (.error .recursion) .ok := by
  unfold mergeGroup Accepted
  cases getGroup people before.groups source with
  | none => exact .inl ⟨_, rfl⟩
  | some sourceGroup => cases getGroup people before.groups target with
    | none => exact .inl ⟨_, rfl⟩
    | some targetGroup =>
        by_cases same : source = target
        · exact .inl ⟨_, if_pos same⟩
        by_cases within : target ∈ descendants people before.groups source
        · exact .inl ⟨_, (if_neg same).trans (if_pos within)⟩
        refine .inr ⟨⟨rfl, rfl, same, within⟩, (if_neg same).trans ((if_neg within).trans ?_)⟩
        cases fold limit source target before <;> rfl

private theorem below_outside {shape : Shape}
    (midway : Midway before.groups source target shape) {id : GroupId}
    (below : Below (shapeOf before.groups).parent id target)
    (out : ¬ InBranch before.groups source id) : Below shape.parent id target := by
  induction below using Relation.ReflTransGen.head_induction_on with
  | refl => exact Below.refl _
  | @head id up edge _ induction =>
      have outUp : ¬ InBranch before.groups source up := fun inside =>
        out ((Below.step edge).trans inside)
      have same : shape.parent id = some up := by
        rw [Shape.parent, midway.outside id out]
        exact edge
      exact (Below.step same).trans (induction outUp)

private theorem below_inside {shape : Shape} (midway : Midway before.groups source target shape)
    (gone : shape source = none) {id : GroupId} (inBranch : InBranch before.groups source id)
    (stored : shape id ≠ none) : Below shape.parent id target := by
  induction inBranch using Relation.ReflTransGen.head_induction_on with
  | refl => exact absurd gone stored
  | @head id up edge rest induction =>
      obtain ⟨⟨name, now⟩, held⟩ := Option.ne_none_iff_exists'.mp stored
      obtain ⟨was, old, moves⟩ := midway.inside id name now ((Below.step edge).trans rest) held
      obtain rfl : was = some up := (Shape.parent_of_eq_some old).symm.trans edge
      rcases moves with rfl | ⟨low, high, isLow, rfl, pair, out⟩
      · exact (Below.step (Shape.parent_of_eq_some held)).trans
          (induction (midway.tidy.rooted id name up held))
      · exact (Below.step (Shape.parent_of_eq_some held)).trans
          (below_outside midway pair.target_below out)

private theorem foldable_of_emptyInside (tidy : (shapeOf before.groups).Tidy)
    (empty : EmptyInside people before source target) (present : shapeOf before.groups target ≠ none)
    (apart : target ∉ descendants people before.groups source) :
    Foldable before.groups source target ∧ Light before source target := by
  have inBranch : ∀ id, InBranch before.groups source id ↔
      id ∈ descendants people before.groups source := fun id => by
    rw [mem_descendants people tidy.ranked_groups, InBranch, parent_shapeOf]
  have empties := fun low high (pair : Pair before.groups source target low high) below =>
    empty (low, high) (pair.mem_pairs tidy.ranked_groups tidy.rooted_groups)
      ((inBranch high).mp below)
  exact
    ⟨{ tidy
       present
       apart := fun below => apart ((inBranch target).mp below)
       outside := fun low high pair units below => units (empties low high pair below).1 },
     { domains := fun low high pair below => (empties low high pair below).2.1
       contact := fun low high pair below => (empties low high pair below).2.2 }⟩

private theorem merged_of_carried (light : Light before source target)
    (foldable : Foldable before.groups source target)
    (folded : Folded before.groups source target source (shapeOf before.groups)
      (shapeOf after.groups))
    (held : Held before source target after)
    (carried : Carried before source target (Below (shapeOf before.groups).parent · source) before
      after) : Merged before after source target where
  sourceGone := shapeOf_eq_none.mp folded.gone
  folded low high joins :=
    shapeOf_eq_none.mp (carried.gone low high joins.1.source_below joins)
  below id dest inBranch lands := by
    rw [← parent_shapeOf]
    rcases lands with joins | ⟨alone, rfl⟩
    · exact ⟨mt shapeOf_eq_none.mpr (joins.stored foldable folded.midway),
        below_outside folded.midway joins.1.target_below joins.2⟩
    · have stored := carried.kept dest inBranch alone
      exact ⟨mt shapeOf_eq_none.mpr stored, below_inside folded.midway folded.gone inBranch stored⟩
  domains := by
    refine List.forall₂_iff_get.mpr ⟨held.domains.length_eq, fun index first second => ?_⟩
    have moved := held.domains.get first second
    have wasMember := List.get_mem before.domains ⟨index, first⟩
    have nowMember := List.get_mem after.domains ⟨index, second⟩
    revert moved wasMember nowMember
    generalize before.domains.get ⟨index, first⟩ = was
    generalize after.domains.get ⟨index, second⟩ = now
    rintro (rfl | ⟨low, high, isLow, joins, rfl⟩) wasMember nowMember
    · refine ⟨fun id isId inBranch => ⟨id, .inr ⟨fun high pair => ?_, rfl⟩, ?_⟩, fun _ => rfl⟩
      · by_cases inside : InBranch before.groups source high
        · exact light.domains id high pair inside now wasMember isId
        · exact carried.left id high inBranch ⟨pair, inside⟩ now nowMember isId
      · rw [← isId]
    · refine ⟨fun id isId _ => ?_, fun out => absurd joins.1.source_below (out low isLow)⟩
      obtain rfl := Option.some.inj (isLow.symm.trans isId)
      exact ⟨high, .inl joins, rfl⟩
  contacts id dest own inBranch lands isOwn := by
    rcases lands with joins | ⟨alone, rfl⟩
    · rw [if_neg, carried.gives id dest inBranch joins, isOwn]
      · rfl
      · rintro rfl
        exact joins.2 inBranch
    · rw [if_pos rfl, held.contacts dest inBranch (carried.kept dest inBranch alone), isOwn]
  tidy := folded.midway.tidy

/-- A merge that is accepted ends, where there are fewer units than the interpreter allows calls, and
loses nothing: no domain, and no contact but where the unit it would go to has one of its own. -/
theorem merged_of_mergeGroup (tidy : (shapeOf before.groups).Tidy)
    (empty : EmptyInside people before source target) :
    (before.groups.rows.length < limit →
      mergeGroup people limit source target before ≠ .error .recursion) ∧
    ∀ after, mergeGroup people limit source target before = .ok after →
      Merged before after source target := by
  have midway : Midway before.groups source target (shapeOf before.groups) :=
    { tidy
      outside := fun _ _ => rfl
      inside := fun _ _ up _ held => ⟨up, held, .inl rfl⟩ }
  have spec := fun (foldable : Foldable before.groups source target) =>
    fold_spec foldable limit source target before midway (Below.refl source) .start fun _ _ => rfl
  have present : (getGroup people before.groups target).isSome →
      shapeOf before.groups target ≠ none := by
    rw [getGroup_eq_find people tidy.ranked_groups]
    intro some absent
    rw [shapeOf_eq_none.mp absent] at some
    cases some
  rcases @mergeGroup_cases people limit before source target with
    ⟨problem, refused⟩ | ⟨⟨_, isTarget, _, apart⟩, result⟩
  · rw [refused]
    exact ⟨fun _ => nofun, nofun⟩
  rw [result]
  obtain ⟨foldable, light⟩ := foldable_of_emptyInside tidy empty (present isTarget) apart
  obtain ⟨total, done⟩ := spec foldable
  cases folds : fold limit source target before with
  | none =>
      refine ⟨fun enough => absurd folds (total ?_), nofun⟩
      exact ⟨[], List.nodup_nil, List.nil_subset _, by simp, by simpa using enough⟩
  | some after =>
      refine ⟨fun _ => nofun, ?_⟩
      rintro _ ⟨⟩
      obtain ⟨folded, carry⟩ := done after folds
      obtain ⟨held, carried⟩ := carry light
        { domains := List.forall₂_same.mpr fun _ _ => .inl rfl
          contacts := fun _ _ _ => rfl }
      exact merged_of_carried light foldable folded held carried

end Merge

/-! ## Two companies -/

def companyContact (group : Group) : Group :=
  { group with
    contactId := if group.id = 1 then some 1 else if group.id = 3 then some 2 else none }

/-- Two companies, each with a contact of its own and with a unit of the same name; the unit of the
first one has a domain. -/
def twoCompanies : Portfolio :=
  let units := (ensurePath "B > X".toList (ensurePath "A > X".toList Portfolio.empty).1).1
  { units.modify companyContact (fun _ => rfl) with
    domains := [{ id := 1, domain := "a.nl".toList, groupId := some 2, lifecycle := .keep,
                  threatIntel := false, contactId := none, note := none, createdBy := none }] }

private theorem tidy_twoCompanies : (shapeOf twoCompanies.groups).Tidy := by
  have units := tidy_ensurePath (tidy_ensurePath tidy_empty "A > X".toList) "B > X".toList
  have same := @Portfolio.shapeOf_modify_of_eq
    (ensurePath "B > X".toList (ensurePath "A > X".toList Portfolio.empty).1).1
    companyContact (fun _ => rfl) fun _ => ⟨rfl, rfl⟩
  rw [← same] at units
  exact units

theorem twoCompanies_merged :
    mergeGroup [1, 2] 1000 1 3 twoCompanies ≠ .error .recursion ∧
    ∀ after, mergeGroup [1, 2] 1000 1 3 twoCompanies = .ok after → Merged twoCompanies after 1 3 :=
  have spec := @merged_of_mergeGroup [1, 2] 1000 twoCompanies 1 3 tidy_twoCompanies
    (by decide +kernel)
  ⟨spec.1 (by decide +kernel), spec.2⟩

/-- The contact of the first company is no one's after the merge: the second one has its own. -/
theorem twoCompanies_drops_contact :
    contactIn twoCompanies.groups 1 = some (some 1) ∧
    ∃ after, mergeGroup [1, 2] 1000 1 3 twoCompanies = .ok after ∧
      ∀ group ∈ after.groups.rows, group.contactId ≠ some 1 := by
  refine ⟨by decide +kernel, ?_⟩
  cases result : mergeGroup [1, 2] 1000 1 3 twoCompanies with
  | error failure =>
      have fine : (mergeGroup [1, 2] 1000 1 3 twoCompanies).toBool = true := by decide +kernel
      rw [result] at fine
      cases fine
  | ok after =>
      have contacts : (mergeGroup [1, 2] 1000 1 3 twoCompanies).toOption.map
          (fun merged => merged.groups.rows.map Group.contactId) = some [some 2, none] := by
        decide +kernel
      rw [result] at contacts
      refine ⟨after, rfl, fun group member named => ?_⟩
      have held : some 1 ∈ after.groups.rows.map Group.contactId :=
        List.mem_map.mpr ⟨group, member, named⟩
      have rows : after.groups.rows.map Group.contactId = [some 2, none] :=
        Option.some.inj contacts
      rw [rows] at held
      revert held
      decide

end DomainPortfolio
end DomainLens
