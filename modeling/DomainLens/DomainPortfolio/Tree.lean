import DomainLens.DomainPortfolio.Merge
import DomainLens.Library.Run

/-!
# The tree of units

Units are created, changed, merged and deleted by any number of clients.  The file says which writes
keep the units a forest that the overview lists in full, with different names under one parent.
-/

namespace DomainLens
namespace DomainPortfolio

open Python Forest Run

/-! ## Single writes -/

/-- A parent that a unit may be placed under: none, or a stored one that is not below the unit. -/
def MayHang (people : List Nat) (groups : Groups) (id : GroupId) (parent : Option GroupId) : Prop :=
  ∀ up ∈ parent, groups.find up ≠ none ∧ up ∉ descendants people groups id

instance (people : List Nat) (groups : Groups) (id : GroupId) (parent : Option GroupId) :
    Decidable (MayHang people groups id parent) :=
  inferInstanceAs (Decidable (∀ up ∈ parent, _ ∧ _))

section Writes

variable {people : List Nat} {portfolio : Portfolio}

private theorem placed_of_mayHang (tidy : (shapeOf portfolio.groups).Tidy) {id : GroupId}
    {parent : Option GroupId} (mayHang : MayHang people portfolio.groups id parent) :
    ∀ up, parent = some up → shapeOf portfolio.groups up ≠ none ∧
      ¬ Below (shapeOf portfolio.groups).parent up id := by
  intro up isParent
  obtain ⟨stored, apart⟩ := mayHang up isParent
  refine ⟨fun absent => stored (shapeOf_eq_none.mp absent), fun below => apart ?_⟩
  rw [mem_descendants people tidy.ranked_groups, ← parent_shapeOf]
  exact below

private theorem tidy_ensureGroup (tidy : (shapeOf portfolio.groups).Tidy) {name : Text}
    {parent : Option GroupId} (stored : ∀ up ∈ parent, shapeOf portfolio.groups up ≠ none) :
    (shapeOf (ensureGroup name parent portfolio).1.groups).Tidy ∧
      ∀ id, (ensureGroup name parent portfolio).2 = .ok id →
        shapeOf (ensureGroup name parent portfolio).1.groups id ≠ none := by
  have fresh : shapeOf portfolio.groups (portfolio.lastId + 1) = none := by
    rw [shapeOf_eq_none, Table.find_eq_none]
    intro group member same
    exact absurd (same ▸ portfolio.issued group member) (Nat.not_succ_le_self _)
  unfold ensureGroup
  split
  · exact ⟨tidy, fun id done => by cases done⟩
  · rename_i cleaned _
    split
    · rename_i found isFound
      refine ⟨tidy, fun id done => ?_⟩
      obtain rfl := Except.ok.inj done
      obtain ⟨held, isHeld, _⟩ := find_eq_some_of isFound
      simp [isHeld]
    · rename_i absent
      rw [portfolio.shapeOf_insert]
      refine ⟨tidy.set (fun up isUp => ⟨stored up isUp, fun below => ?_⟩)
        fun other otherName _ held => noCase_ne_of_find_eq_none absent held, fun id done => ?_⟩
      · exact stored up isUp (tidy.eq_of_below_absent below fresh ▸ fresh)
      · obtain rfl := Except.ok.inj done
        simp [Shape.set]

private theorem tidy_ensureParts (tidy : (shapeOf portfolio.groups).Tidy) {parts : List Text}
    {parent : Option GroupId} (stored : ∀ up ∈ parent, shapeOf portfolio.groups up ≠ none) :
    (shapeOf (ensureParts parts parent portfolio).1.groups).Tidy := by
  induction parts generalizing parent portfolio with
  | nil => exact tidy
  | cons part parts induction =>
      obtain ⟨kept, there⟩ := @tidy_ensureGroup portfolio tidy part parent stored
      rw [ensureParts]
      split
      · rename_i after problem done
        rw [done] at kept
        exact kept
      · rename_i after id done
        rw [done] at kept there
        refine induction kept ?_
        rintro up ⟨⟩
        exact there id rfl

theorem tidy_ensurePath (tidy : (shapeOf portfolio.groups).Tidy) (path : Text) :
    (shapeOf (ensurePath path portfolio).1.groups).Tidy := by
  unfold ensurePath
  split
  · exact tidy
  · exact tidy_ensureParts tidy (by simp)

theorem tidy_update (tidy : (shapeOf portfolio.groups).Tidy) {update : Update}
    (mayHang : portfolio.groups.find update.id ≠ none →
      MayHang people portfolio.groups update.id update.parentId)
    (free : (find portfolio.groups update.name update.parentId).any (· ≠ update.id) = false) :
    (shapeOf (portfolio.update update).groups).Tidy := by
  by_cases stored : shapeOf portfolio.groups update.id = none
  · have same : shapeOf (portfolio.update update).groups = shapeOf portfolio.groups := by
      funext id
      rw [portfolio.shapeOf_update]
      split
      · rename_i isId
        rw [isId, stored]
        rfl
      · rfl
    rw [same]
    exact tidy
  · have set : shapeOf (portfolio.update update).groups =
        (shapeOf portfolio.groups).set update.id update.name update.parentId := by
      funext id
      rw [portfolio.shapeOf_update, Shape.set]
      split
      · rename_i isId
        obtain ⟨held, isHeld⟩ := Option.ne_none_iff_exists'.mp stored
        rw [isId, isHeld]
        rfl
      · rfl
    rw [set]
    have held : portfolio.groups.find update.id ≠ none :=
      fun absent => stored (shapeOf_eq_none.mpr absent)
    refine tidy.set (placed_of_mayHang tidy (mayHang held)) fun other otherName differs held => ?_
    cases found : find portfolio.groups update.name update.parentId with
    | none => exact noCase_ne_of_find_eq_none found held
    | some clash =>
        have itself : clash = update.id := by simpa [found] using free
        subst itself
        obtain ⟨name, isHeld, same⟩ := find_eq_some_of found
        intro equal
        exact differs
          (tidy.named other update.id otherName name _ held isHeld (equal.trans same.symm))

theorem tidy_delete_contents (tidy : (shapeOf portfolio.groups).Tidy) (id : GroupId)
    (parentId : Option GroupId) :
    (shapeOf (deleteGroup people id parentId true portfolio).groups).Tidy := by
  have shape : shapeOf (deleteGroup people id parentId true portfolio).groups =
      (shapeOf portfolio.groups).remove (· ∈ descendants people portfolio.groups id) :=
    Portfolio.shapeOf_delete _ (· ∈ descendants people portfolio.groups id)
  rw [shape]
  refine tidy.remove fun child name up stored gone => ?_
  rw [mem_descendants people tidy.ranked_groups] at gone ⊢
  have edge : parentIn portfolio.groups child = some up := by
    rw [← parent_shapeOf]
    exact Shape.parent_of_eq_some stored
  exact (Below.step edge).trans gone

private theorem shapeOf_dissolve (id : GroupId) (parentId : Option GroupId) :
    shapeOf (deleteGroup people id parentId false portfolio).groups =
      (shapeOf portfolio.groups).dissolve id parentId := by
  have removed := Portfolio.shapeOf_delete ((portfolio.moveDomains id parentId).modify
    (fun group => if group.parentId = some id then { group with parentId } else group)
    fun group => by split <;> rfl) (· = id)
  refine removed.trans ?_
  funext other
  simp only [Shape.remove, Shape.dissolve, shapeOf, Portfolio.modify, Table.find_modify]
  split
  · rfl
  · change Option.map _ (Option.map _ (portfolio.groups.find other)) =
      Option.map _ (Option.map _ (portfolio.groups.find other))
    cases portfolio.groups.find other with
    | none => rfl
    | some group =>
        simp only [Option.map_some]
        split <;> simp_all

/-- No unit right under one has the name of a unit, that one aside, at another place. -/
def NamesFree (groups : Groups) (id : GroupId) (parentId : Option GroupId) : Prop :=
  ∀ child ∈ unitsUnder groups id, ∀ other ∈ groups.rows, other.parentId = parentId →
    other.id ≠ id → noCase other.name ≠ noCase child.name

instance (groups : Groups) (id : GroupId) (parentId : Option GroupId) :
    Decidable (NamesFree groups id parentId) :=
  inferInstanceAs (Decidable (∀ child ∈ unitsUnder groups id, ∀ other ∈ groups.rows, _))

theorem tidy_delete (tidy : (shapeOf portfolio.groups).Tidy) {id : GroupId}
    {parentId : Option GroupId} (mayHang : unitsUnder portfolio.groups id ≠ [] →
      MayHang people portfolio.groups id parentId ∧ NamesFree portfolio.groups id parentId) :
    (shapeOf (deleteGroup people id parentId false portfolio).groups).Tidy := by
  have under : ∀ {child : GroupId} {name : Text},
      shapeOf portfolio.groups child = some (name, some id) →
        ∃ row ∈ unitsUnder portfolio.groups id, row.name = name := by
    intro child name stored
    obtain ⟨row, member, _, isName, isUp⟩ := shapeOf_eq_some.mp stored
    exact ⟨row, by simp [unitsUnder, member, isUp], isName⟩
  rw [shapeOf_dissolve]
  by_cases leaf : unitsUnder portfolio.groups id = []
  · have removed : (shapeOf portfolio.groups).dissolve id parentId =
        (shapeOf portfolio.groups).remove (· = id) := by
      funext other
      rw [Shape.dissolve, Shape.remove]
      cases held : shapeOf portfolio.groups other with
      | none => rfl
      | some row =>
          obtain ⟨name, up⟩ := row
          have apart : up ≠ some id := by
            rintro rfl
            obtain ⟨row, member, _⟩ := under held
            rw [leaf] at member
            cases member
          simp only [Option.map_some, if_neg apart]
    rw [removed]
    refine tidy.remove fun child name up stored gone => ?_
    obtain ⟨row, member, _⟩ := under (gone ▸ stored)
    rw [leaf] at member
    cases member
  · obtain ⟨hangs, free⟩ := mayHang leaf
    refine tidy.dissolve (placed_of_mayHang tidy hangs) ?_
    intro child childName other otherName isChild isOther differs
    obtain ⟨row, member, rfl⟩ := under isChild
    obtain ⟨otherRow, otherMember, rfl, rfl, otherUp⟩ := shapeOf_eq_some.mp isOther
    exact free row member otherRow otherMember otherUp differs

end Writes

/-! ## Runs -/

/-- What every client is to find: a forest with stored parents, listed in full, with different names
under one parent.  Letters beyond ASCII have no case for the table, so that names that differ in
theirs count as different. -/
structure Orderly (people : List Nat) (groups : Groups) : Prop where
  acyclic : Acyclic (parentIn groups)
  rooted : Rooted groups
  listed : ((listGroups people groups).map Listed.group).Perm groups.rows
  named : ∀ left ∈ groups.rows, ∀ right ∈ groups.rows, left.parentId = right.parentId →
    noCase left.name = noCase right.name → left = right

/-- No two units differ in the case of a letter beyond ASCII alone. -/
def PlainCase (groups : Groups) : Prop :=
  ∀ left ∈ groups.rows, ∀ right ∈ groups.rows, lower left.name = lower right.name →
    noCase left.name = noCase right.name

theorem orderly_of_tidy (people : List Nat) {groups : Groups} (tidy : (shapeOf groups).Tidy) :
    Orderly people groups where
  acyclic := tidy.ranked_groups.acyclic
  rooted := tidy.rooted_groups
  listed := listGroups_perm people tidy.ranked_groups
  named left leftMember right rightMember up same := by
    have ids := tidy.named left.id right.id left.name right.name left.parentId
      (shapeOf_of_mem leftMember) (up ▸ shapeOf_of_mem rightMember) same
    have found := Table.find_of_mem leftMember
    rw [ids, Table.find_of_mem rightMember] at found
    exact (Option.some.inj found).symm

/-- When a pending write is made, what its client has checked is still so; a merge folds no unit with
units of its own into the branch it folds, and a deletion moves no unit to a unit of its name. -/
def StillMeets (people : List Nat) (groups : Groups) : Stage → Prop
  | .updateWrite update =>
      groups.find update.id ≠ none → MayHang people groups update.id update.parentId
  | .mergeWrite source target =>
      unitsUnder groups source ≠ [] →
        groups.find target ≠ none ∧ target ∉ descendants people groups source ∧
          StaysOutside people groups source target
  | .deleteWrite id parentId withContents =>
      withContents = false → unitsUnder groups id ≠ [] →
        MayHang people groups id parentId ∧ NamesFree groups id parentId
  | _ => True

instance (people : List Nat) (groups : Groups) : DecidablePred (StillMeets people groups)
  | .updateWrite _ => inferInstanceAs (Decidable (_ → _))
  | .mergeWrite _ _ => inferInstanceAs (Decidable (_ → _))
  | .deleteWrite _ _ _ => inferInstanceAs (Decidable (_ → _))
  | .updateParent _ _ _ | .updateBranch _ _ _ | .mergeTarget _ _ | .mergeBranch _ _ => .isTrue trivial

/-- The step of a client is no write, or one that still meets its checks. -/
def Timely (people : List Nat) (world : World) : Label → World → Prop
  | .proceed client, _ =>
      ∀ stage ∈ world.pending client, StillMeets people world.portfolio.groups stage
  | _, _ => True

instance (people : List Nat) (world : World) : ∀ label next, Decidable (Timely people world label next)
  | .proceed client, _ => inferInstanceAs (Decidable (∀ stage ∈ world.pending client, _))
  | .ensurePath _, _ | .call _ _, _ => .isTrue trivial

private theorem tidy_write {people : List Nat} {limit : Nat} {portfolio after : Portfolio}
    (tidy : (shapeOf portfolio.groups).Tidy) {stage : Stage}
    (meets : StillMeets people portfolio.groups stage)
    (written : write people limit portfolio stage = some after) :
    (shapeOf after.groups).Tidy := by
  cases stage with
  | updateWrite update =>
      obtain rfl := Option.some.inj written
      split
      · exact tidy
      · rename_i free
        exact tidy_update tidy meets (Bool.eq_false_iff.mpr free)
  | mergeWrite source target =>
      obtain rfl := Option.some.inj written
      cases folded : fold limit source target portfolio with
      | none => exact tidy
      | some merged =>
          by_cases leaf : unitsUnder portfolio.groups source = []
          · exact tidy_fold_leaf tidy leaf folded
          · obtain ⟨stored, apart, outside⟩ := meets leaf
            exact (tidy_fold tidy stored apart outside folded).1
  | deleteWrite id parentId withContents =>
      obtain rfl := Option.some.inj written
      cases withContents with
      | true => exact tidy_delete_contents tidy id parentId
      | false => exact tidy_delete tidy (meets rfl)
  | updateParent | updateBranch | mergeTarget | mergeBranch => cases written

private theorem tidy_step {people : List Nat} {limit : Nat} {world next : World} {label : Label}
    (tidy : (shapeOf world.portfolio.groups).Tidy) (taken : step people limit world label = some next)
    (timely : Timely people world label next) : (shapeOf next.portfolio.groups).Tidy := by
  cases label with
  | ensurePath path =>
      obtain rfl := Option.some.inj taken
      exact tidy_ensurePath tidy path
  | call client call =>
      simp only [step] at taken
      split at taken
      · cases taken
      · obtain rfl := Option.some.inj taken
        exact tidy
  | proceed client =>
      simp only [step] at taken
      split at taken
      · cases taken
      · rename_i stage pending
        split at taken
        · rename_i after written
          obtain rfl := Option.some.inj taken
          exact tidy_write tidy (timely stage pending) written
        · obtain rfl := Option.some.inj taken
          exact tidy

/-- No units, and no client in the middle of an edit. -/
def World.start : World where
  portfolio := Portfolio.empty
  pending := fun _ => none

/-- One client merges A into C, another deletes the unit B of A meanwhile. -/
def sharedRun : List Label :=
  [.ensurePath "A > B".toList, .ensurePath "C > B".toList, .call 0 (.merge 1 3),
   .call 1 (.delete 2 false), .proceed 0, .proceed 1, .proceed 0, .proceed 0]

/-- The unit B is deleted, whose unit X goes to A, where there is an X. -/
def duplicatingRun : List Label :=
  [.ensurePath "A > X".toList, .ensurePath "A > B > X".toList, .call 0 (.delete 3 false), .proceed 0]

end DomainPortfolio
end DomainLens
