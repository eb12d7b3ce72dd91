import DomainLens.DomainPortfolio.Shape

/-!
# The pairs of a merge

A merge folds units into one another: the source into the target, and a unit right under the first of
a pair into its twin right under the second.  Which pairs there are is fixed by the units as they stood
before the merge.
-/

namespace DomainLens
namespace DomainPortfolio

open Python Forest

/-- Two units of which the first is folded into the second. -/
inductive Pair (groups : Groups) (source target : GroupId) : GroupId → GroupId → Prop where
  | start : Pair groups source target source target
  | twin {low high : GroupId} {child : Group} {twin : GroupId} (above : Pair groups source target low high)
      (under : child ∈ unitsUnder groups low)
      (found : find groups child.name (some high) = some twin) :
      Pair groups source target child.id twin

def pairs (groups : Groups) : Nat → GroupId → GroupId → List (GroupId × GroupId)
  | 0, source, target => [(source, target)]
  | depth + 1, source, target =>
      (source, target) :: (unitsUnder groups source).flatMap fun child =>
        match find groups child.name (some target) with
        | some twin => pairs groups depth child.id twin
        | none => []

/-- The units of which one is folded into the branch of the source have none of their own.  Such a
pair occurs where the target is above the source and the names on the path between the two are
repeated below the source. -/
def StaysOutside (people : List Nat) (groups : Groups) (source target : GroupId) : Prop :=
  ∀ pair ∈ pairs groups groups.rows.length source target,
    pair.2 ∈ descendants people groups source → unitsUnder groups pair.1 = []

instance (people : List Nat) (groups : Groups) (source target : GroupId) :
    Decidable (StaysOutside people groups source target) :=
  inferInstanceAs (Decidable (∀ pair ∈ pairs groups groups.rows.length source target, _ → _))

section Pairs

variable {groups : Groups} {source target : GroupId}

theorem mem_unitsUnder {group : Group} {id : GroupId} :
    group ∈ unitsUnder groups id ↔ group ∈ groups.rows ∧ group.parentId = some id := by
  simp [unitsUnder]

private theorem head_mem_pairs (depth : Nat) (source target : GroupId) :
    (source, target) ∈ pairs groups depth source target := by
  cases depth with
  | zero => exact List.mem_singleton.mpr rfl
  | succ depth => exact List.mem_cons_self

private theorem mem_pairs_succ {depth : Nat} {low high twin : GroupId} {child : Group}
    (member : (low, high) ∈ pairs groups depth source target) (under : child ∈ unitsUnder groups low)
    (found : find groups child.name (some high) = some twin) :
    (child.id, twin) ∈ pairs groups (depth + 1) source target := by
  -- The pair itself hands its twins on to the next depth.
  have here : ∀ depth, (child.id, twin) ∈ pairs groups (depth + 1) low high := by
    intro depth
    refine List.mem_cons_of_mem _ (List.mem_flatMap.mpr ⟨child, under, ?_⟩)
    rw [found]
    exact head_mem_pairs depth child.id twin
  induction depth generalizing source target with
  | zero =>
      obtain ⟨rfl, rfl⟩ := Prod.mk.inj (List.mem_singleton.mp member)
      exact here 0
  | succ depth induction =>
      rcases List.mem_cons.mp member with same | later
      · obtain ⟨rfl, rfl⟩ := Prod.mk.inj same
        exact here (depth + 1)
      · obtain ⟨first, isFirst, rest⟩ := List.mem_flatMap.mp later
        refine List.mem_cons_of_mem _ (List.mem_flatMap.mpr ⟨first, isFirst, ?_⟩)
        split at rest
        · exact induction rest
        · cases rest

private theorem mem_pairs_mono {depth deeper : Nat} {pair : GroupId × GroupId}
    (member : pair ∈ pairs groups depth source target) (more : depth ≤ deeper) :
    pair ∈ pairs groups deeper source target := by
  induction depth generalizing source target deeper with
  | zero =>
      rw [List.mem_singleton.mp member]
      exact head_mem_pairs deeper source target
  | succ depth induction =>
      cases deeper with
      | zero => exact absurd more (Nat.not_succ_le_zero depth)
      | succ deeper =>
          rcases List.mem_cons.mp member with rfl | later
          · exact List.mem_cons_self
          · obtain ⟨first, isFirst, rest⟩ := List.mem_flatMap.mp later
            refine List.mem_cons_of_mem _ (List.mem_flatMap.mpr ⟨first, isFirst, ?_⟩)
            split at rest
            · exact induction rest (Nat.le_of_succ_le_succ more)
            · cases rest

theorem Pair.mem_pairs (ranked : Ranked (parentIn groups)) (rooted : Rooted groups)
    {low high : GroupId} (pair : Pair groups source target low high) :
    (low, high) ∈ pairs groups groups.rows.length source target := by
  -- The units above the first one are different and stored, so there are few.
  have trailed : ∃ trail : List GroupId, trail.Nodup ∧ trail ⊆ groups.rows.map Group.id ∧
      (∀ id ∈ trail, low ≠ id ∧ Below (parentIn groups) low id) ∧
      (low, high) ∈ pairs groups trail.length source target := by
    induction pair with
    | start => exact ⟨[], List.nodup_nil, List.nil_subset _, by simp, head_mem_pairs 0 _ _⟩
    | @twin low high child twin above under found induction =>
        obtain ⟨trail, distinct, stored, higher, member⟩ := induction
        obtain ⟨isRow, up⟩ := mem_unitsUnder.mp under
        have edge : parentIn groups child.id = some low := (parentIn_of_mem isRow).trans up
        obtain ⟨row, isLow⟩ := Option.ne_none_iff_exists'.mp (rooted child isRow low up)
        refine ⟨low :: trail, List.nodup_cons.mpr ⟨fun held => (higher low held).1 rfl, distinct⟩,
          List.cons_subset.mpr ⟨List.mem_map.mpr
            ⟨row, Table.mem_of_find isLow, Table.key_of_find isLow⟩, stored⟩, ?_,
          mem_pairs_succ member under found⟩
        intro id held
        have above : Below (parentIn groups) low id := by
          rcases List.mem_cons.mp held with rfl | old
          · exact Below.refl _
          · exact (higher id old).2
        refine ⟨fun same => ?_, (Below.step edge).trans above⟩
        subst same
        exact ranked.not_below edge above
  obtain ⟨trail, distinct, stored, _, member⟩ := trailed
  exact mem_pairs_mono member (by simpa using (List.subperm_of_subset distinct stored).length_le)

end Pairs

/-! ## What a pair consists of -/

section Units

variable {original : Groups} {source target : GroupId}

theorem shapeOf_of_mem_unitsUnder {groups : Groups} {child : Group} {id : GroupId}
    (under : child ∈ unitsUnder groups id) :
    shapeOf groups child.id = some (child.name, some id) := by
  obtain ⟨member, up⟩ := mem_unitsUnder.mp under
  rw [shapeOf_of_mem member, up]

theorem exists_unitsUnder {groups : Groups} {id up : GroupId} {name : Text}
    (stored : shapeOf groups id = some (name, some up)) :
    ∃ child ∈ unitsUnder groups up, child.id = id ∧ child.name = name := by
  obtain ⟨child, member, isId, isName, isUp⟩ := shapeOf_eq_some.mp stored
  exact ⟨child, mem_unitsUnder.mpr ⟨member, isUp⟩, isId, isName⟩

theorem find_eq_of_shapeOf {groups : Groups} (tidy : (shapeOf groups).Tidy) {id : GroupId}
    {held name : Text} {up : Option GroupId} (stored : shapeOf groups id = some (held, up))
    (same : noCase held = noCase name) : find groups name up = some id := by
  cases found : find groups name up with
  | none => exact absurd same (noCase_ne_of_find_eq_none found stored)
  | some other =>
      obtain ⟨otherName, isOther, equal⟩ := find_eq_some_of found
      rw [tidy.named other id otherName held up isOther stored (equal.trans same.symm)]

theorem Pair.target_below {low high : GroupId}
    (pair : Pair original source target low high) :
    Below (shapeOf original).parent high target := by
  induction pair with
  | start => exact Below.refl _
  | twin _ _ found induction =>
      obtain ⟨name, stored, _⟩ := find_eq_some_of found
      exact (Below.step (Shape.parent_of_eq_some stored)).trans induction

theorem Pair.target_stored (present : shapeOf original target ≠ none) {low high : GroupId}
    (pair : Pair original source target low high) : shapeOf original high ≠ none := by
  cases pair with
  | start => exact present
  | twin _ _ found =>
      obtain ⟨name, stored, _⟩ := find_eq_some_of found
      simp [stored]

theorem Pair.source_unique (tidy : (shapeOf original).Tidy) {low other high : GroupId}
    (pair : Pair original source target low high) (again : Pair original source target other high) :
    low = other := by
  -- The target itself is no twin: its parent would lie below it.
  have noTwin : ∀ {low high : GroupId} {name : Text}, Pair original source target low high →
      find original name (some high) ≠ some target := by
    intro low high name above found
    obtain ⟨held, stored, _⟩ := find_eq_some_of found
    exact tidy.ranked.not_below (Shape.parent_of_eq_some stored) above.target_below
  induction pair generalizing other with
  | start =>
      cases again with
      | start => rfl
      | twin above _ found => exact absurd found (noTwin above)
  | @twin low high child twin above under found induction =>
      cases again with
      | start => exact absurd found (noTwin above)
      | @twin otherLow otherHigh otherChild _ otherAbove otherUnder otherFound =>
          obtain ⟨name, stored, same⟩ := find_eq_some_of found
          obtain ⟨otherName, otherStored, otherSame⟩ := find_eq_some_of otherFound
          obtain ⟨rfl, highs⟩ := Prod.mk.inj (Option.some.inj (stored.symm.trans otherStored))
          obtain rfl := Option.some.inj highs
          obtain rfl := induction otherAbove
          exact tidy.named child.id otherChild.id child.name otherChild.name (some low)
            (shapeOf_of_mem_unitsUnder under) (shapeOf_of_mem_unitsUnder otherUnder)
            (same.symm.trans otherSame)

/-- The branch that is folded: the source and every unit below it. -/
def InBranch (original : Groups) (source id : GroupId) : Prop :=
  Below (shapeOf original).parent id source

theorem Pair.source_below {low high : GroupId} (pair : Pair original source target low high) :
    InBranch original source low := by
  induction pair with
  | start => exact Below.refl _
  | twin _ under _ induction =>
      exact (Below.step (Shape.parent_of_eq_some (shapeOf_of_mem_unitsUnder under))).trans induction

private theorem source_not_under (tidy : (shapeOf original).Tidy) {low : GroupId} {child : Group}
    (inBranch : InBranch original source low) (under : child ∈ unitsUnder original low) :
    child.id ≠ source := by
  rintro rfl
  exact tidy.ranked.not_below (Shape.parent_of_eq_some (shapeOf_of_mem_unitsUnder under)) inBranch

/-- A pair is the first one, or consists of a unit right under the first of a pair and its twin. -/
theorem Pair.eq_or_under {low high : GroupId} (pair : Pair original source target low high) :
    low = source ∧ high = target ∨ ∃ up top, ∃ child ∈ unitsUnder original up, child.id = low ∧
      Pair original source target up top ∧ find original child.name (some top) = some high := by
  cases pair with
  | start => exact .inl ⟨rfl, rfl⟩
  | @twin up top child _ above under found => exact .inr ⟨up, top, child, under, rfl, above, found⟩

theorem Pair.target_unique (tidy : (shapeOf original).Tidy) {low high other : GroupId}
    (pair : Pair original source target low high) (again : Pair original source target low other) :
    high = other := by
  induction pair generalizing other with
  | start =>
      rcases again.eq_or_under with ⟨_, same⟩ | ⟨up, top, child, under, isChild, above, _⟩
      · exact same.symm
      · exact absurd isChild (source_not_under tidy above.source_below under)
  | @twin low high child twin above under found induction =>
      rcases again.eq_or_under with ⟨same, _⟩ | ⟨up, top, child', under', isChild, above', found'⟩
      · exact absurd same (source_not_under tidy above.source_below under)
      · have stored := shapeOf_of_mem_unitsUnder under
        rw [← isChild, shapeOf_of_mem_unitsUnder under'] at stored
        obtain ⟨name, ups⟩ := Prod.mk.inj (Option.some.inj stored)
        obtain rfl := Option.some.inj ups
        obtain rfl := induction above'
        rw [name, found] at found'
        exact Option.some.inj found'

end Units

end DomainPortfolio
end DomainLens
