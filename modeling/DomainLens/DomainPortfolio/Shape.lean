import DomainLens.DomainPortfolio.Edits
import DomainLens.DomainPortfolio.Listing

/-!
# The shape of the units

The tree depends on the name and the parent of each unit alone.  Every write sets them for one unit,
hangs the units under one elsewhere, or removes whole branches; the file says when that keeps a forest
whose siblings have different names.
-/

namespace DomainLens
namespace DomainPortfolio

open Python Forest

/-- The name and the parent of each stored unit. -/
abbrev Shape := GroupId → Option (Text × Option GroupId)

namespace Shape

def parent (shape : Shape) (id : GroupId) : Option GroupId := (shape id).bind (·.2)

/-- A forest with stored parents, in which no two siblings have one name. -/
structure Tidy (shape : Shape) : Prop where
  ranked : Ranked shape.parent
  rooted : ∀ id name up, shape id = some (name, some up) → shape up ≠ none
  named : ∀ left right leftName rightName up, shape left = some (leftName, up) →
    shape right = some (rightName, up) → noCase leftName = noCase rightName → left = right

variable {shape : Shape}

theorem parent_of_eq_some {id : GroupId} {name : Text} {up : Option GroupId}
    (held : shape id = some (name, up)) : shape.parent id = up := by
  rw [parent, held]
  rfl

theorem parent_eq_some {id up : GroupId} :
    shape.parent id = some up ↔ ∃ name, shape id = some (name, some up) := by
  rw [parent, Option.bind_eq_some_iff]
  constructor
  · rintro ⟨⟨name, _⟩, held, rfl⟩
    exact ⟨name, held⟩
  · rintro ⟨name, held⟩
    exact ⟨_, held, rfl⟩

theorem Tidy.eq_of_below_absent (tidy : Tidy shape) {low high : GroupId}
    (below : Below shape.parent low high) (absent : shape high = none) : low = high := by
  rcases below.tail with same | ⟨child, _, edge⟩
  · exact same
  · obtain ⟨name, held⟩ := parent_eq_some.mp edge
    exact absurd absent (tidy.rooted child name high held)

/-- A name and a parent for one unit, new or not. -/
def set (shape : Shape) (id : GroupId) (name : Text) (up : Option GroupId) : Shape :=
  fun other => if other = id then some (name, up) else shape other

/-- One unit may be set to a name and a parent when the parent is stored, is not below it and has no
other unit of that name. -/
theorem Tidy.set (tidy : Tidy shape) {id : GroupId} {name : Text} {up : Option GroupId}
    (placed : ∀ high, up = some high → shape high ≠ none ∧ ¬ Below shape.parent high id)
    (free : ∀ other otherName, other ≠ id → shape other = some (otherName, up) →
      noCase otherName ≠ noCase name) : Tidy (shape.set id name up) where
  ranked := by
    have edges : ∀ child high, (shape.set id name up).parent child = some high →
        shape.parent child = some high ∨ child = id ∧ up = some high := by
      intro child high edge
      by_cases same : child = id
      · subst same
        exact .inr ⟨rfl, by simpa [Shape.set, Shape.parent] using edge⟩
      · exact .inl (by simpa [Shape.set, Shape.parent, same] using edge)
    cases up with
    | none => exact tidy.ranked.mono fun child high edge => (edges child high edge).resolve_right (by simp)
    | some top =>
        refine tidy.ranked.move (· = id) top (fun child high edge => ?_) ?_
        · exact (edges child high edge).imp_right fun ⟨same, equal⟩ =>
            ⟨same, (Option.some.inj equal).symm⟩
        · rintro _ rfl
          exact (placed top rfl).2
  rooted := by
    intro child childName high held
    by_cases isTop : high = id
    · simp [Shape.set, isTop]
    · by_cases same : child = id
      · simp only [Shape.set, same, if_true, Option.some.injEq, Prod.mk.injEq] at held
        simpa [Shape.set, isTop] using (placed high held.2).1
      · simp only [Shape.set, same, if_false] at held
        simpa [Shape.set, isTop] using tidy.rooted child childName high held
  named := by
    intro left right leftName rightName top isLeft isRight same
    by_cases atLeft : left = id <;> by_cases atRight : right = id
    · rw [atLeft, atRight]
    · simp only [Shape.set, atLeft, atRight, if_true, if_false, Option.some.injEq,
        Prod.mk.injEq] at isLeft isRight
      obtain ⟨rfl, rfl⟩ := isLeft
      exact absurd same.symm (free right rightName atRight isRight)
    · simp only [Shape.set, atLeft, atRight, if_true, if_false, Option.some.injEq,
        Prod.mk.injEq] at isLeft isRight
      obtain ⟨rfl, rfl⟩ := isRight
      exact absurd same (free left leftName atLeft isLeft)
    · simp only [Shape.set, atLeft, atRight, if_false] at isLeft isRight
      exact tidy.named left right leftName rightName top isLeft isRight same

def remove (shape : Shape) (gone : GroupId → Prop) [DecidablePred gone] : Shape :=
  fun id => if gone id then none else shape id

theorem Tidy.remove (tidy : Tidy shape) {gone : GroupId → Prop} [DecidablePred gone]
    (branches : ∀ child name up, shape child = some (name, some up) → gone up → gone child) :
    Tidy (shape.remove gone) where
  ranked := by
    refine tidy.ranked.mono fun child up edge => ?_
    obtain ⟨name, held⟩ := parent_eq_some.mp edge
    rw [Shape.remove, Option.ite_none_left_eq_some] at held
    exact parent_eq_some.mpr ⟨name, held.2⟩
  rooted := by
    intro child name up held
    rw [Shape.remove, Option.ite_none_left_eq_some] at held
    rw [Shape.remove, if_neg fun isGone => held.1 (branches child name up held.2 isGone)]
    exact tidy.rooted child name up held.2
  named := by
    intro left right leftName rightName up isLeft isRight
    rw [Shape.remove, Option.ite_none_left_eq_some] at isLeft isRight
    exact tidy.named left right leftName rightName up isLeft.2 isRight.2

/-- The shape without one unit, the units under it hanging under another parent. -/
def dissolve (shape : Shape) (id : GroupId) (up : Option GroupId) : Shape :=
  fun other => if other = id then none else
    (shape other).map fun (name, high) => (name, if high = some id then up else high)

/-- A unit may be dissolved into a parent that is stored, is not below it and has no unit, that one
aside, with the name of one of its own. -/
theorem Tidy.dissolve (tidy : Tidy shape) {id : GroupId} {up : Option GroupId}
    (placed : ∀ high, up = some high → shape high ≠ none ∧ ¬ Below shape.parent high id)
    (free : ∀ child childName other otherName, shape child = some (childName, some id) →
      shape other = some (otherName, up) → other ≠ id → noCase otherName ≠ noCase childName) :
    Tidy (shape.dissolve id up) := by
  -- Where a unit of the new shape was.
  have read : ∀ {other name high}, shape.dissolve id up other = some (name, high) → other ≠ id ∧
      (shape other = some (name, some id) ∧ high = up ∨
        shape other = some (name, high) ∧ high ≠ some id) := by
    intro other name high held
    rw [Shape.dissolve, Option.ite_none_left_eq_some] at held
    refine ⟨held.1, ?_⟩
    obtain ⟨⟨oldName, old⟩, stored, same⟩ := Option.map_eq_some_iff.mp held.2
    simp only [Prod.mk.injEq] at same
    obtain ⟨rfl, moved⟩ := same
    split at moved
    · rename_i under
      exact .inl ⟨by rw [stored, under], moved.symm⟩
    · rename_i apart
      exact .inr ⟨by rw [stored, moved], moved ▸ apart⟩
  have edges : ∀ child high, (shape.dissolve id up).parent child = some high →
      shape.parent child = some high ∨ shape.parent child = some id ∧ up = some high := by
    intro child high edge
    obtain ⟨name, held⟩ := parent_eq_some.mp edge
    rcases (read held).2 with ⟨old, same⟩ | ⟨old, _⟩
    · exact .inr ⟨parent_of_eq_some old, same.symm⟩
    · exact .inl (parent_of_eq_some old)
  refine ⟨?_, ?_, ?_⟩
  · cases up with
    | none => exact tidy.ranked.mono fun child high edge => (edges child high edge).resolve_right (by simp)
    | some top =>
        refine tidy.ranked.move (fun child => shape.parent child = some id) top
          (fun child high edge => ?_) fun child under below => ?_
        · exact (edges child high edge).imp_right fun ⟨under, same⟩ =>
            ⟨under, (Option.some.inj same).symm⟩
        · exact (placed top rfl).2 (below.trans (Below.step under))
  · intro child name high held stored
    have kept : shape high ≠ none ∧ high ≠ id := by
      rcases (read held).2 with ⟨_, same⟩ | ⟨old, apart⟩
      · obtain ⟨present, apart⟩ := placed high same.symm
        exact ⟨present, fun equal => apart (equal ▸ Below.refl _)⟩
      · exact ⟨tidy.rooted child name high old, fun equal => apart (by rw [equal])⟩
    obtain ⟨row, found⟩ := Option.ne_none_iff_exists'.mp kept.1
    simp [Shape.dissolve, kept.2, found] at stored
  · intro left right leftName rightName high isLeft isRight same
    obtain ⟨leftStays, wasLeft⟩ := read isLeft
    obtain ⟨rightStays, wasRight⟩ := read isRight
    rcases wasLeft with ⟨leftUnder, leftUp⟩ | ⟨leftOld, _⟩ <;>
      rcases wasRight with ⟨rightUnder, rightUp⟩ | ⟨rightOld, _⟩
    · exact tidy.named left right leftName rightName _ leftUnder rightUnder same
    · exact absurd same.symm (free left leftName right rightName leftUnder (leftUp ▸ rightOld)
        rightStays)
    · exact absurd same (free right rightName left leftName rightUnder (rightUp ▸ leftOld) leftStays)
    · exact tidy.named left right leftName rightName high leftOld rightOld same

end Shape

def shapeOf (groups : Groups) : Shape :=
  fun id => (groups.find id).map fun group => (group.name, group.parentId)

theorem shapeOf_eq_some {groups : Groups} {id : GroupId} {name : Text} {up : Option GroupId} :
    shapeOf groups id = some (name, up) ↔
      ∃ group ∈ groups.rows, group.id = id ∧ group.name = name ∧ group.parentId = up := by
  simp only [shapeOf, Option.map_eq_some_iff, Table.find_eq_some, Prod.mk.injEq, and_assoc]

theorem shapeOf_eq_none {groups : Groups} {id : GroupId} :
    shapeOf groups id = none ↔ groups.find id = none := by
  simp [shapeOf]

theorem shapeOf_of_mem {groups : Groups} {group : Group} (member : group ∈ groups.rows) :
    shapeOf groups group.id = some (group.name, group.parentId) :=
  shapeOf_eq_some.mpr ⟨group, member, rfl, rfl, rfl⟩

theorem parent_shapeOf (groups : Groups) : (shapeOf groups).parent = parentIn groups := by
  funext id
  rw [Shape.parent, shapeOf, parentIn]
  cases groups.find id <;> rfl

/-- The listing of a tidy table is complete, and so are the units below one. -/
theorem Shape.Tidy.rooted_groups {groups : Groups} (tidy : (shapeOf groups).Tidy) : Rooted groups := by
  intro group member parent up absent
  refine tidy.rooted group.id group.name parent ?_ (shapeOf_eq_none.mpr absent)
  rw [shapeOf_of_mem member, up]

theorem Shape.Tidy.ranked_groups {groups : Groups} (tidy : (shapeOf groups).Tidy) :
    Ranked (parentIn groups) :=
  parent_shapeOf groups ▸ tidy.ranked

theorem find_eq_some_of {groups : Groups} {name : Text} {up : Option GroupId} {id : GroupId}
    (found : find groups name up = some id) :
    ∃ held, shapeOf groups id = some (held, up) ∧ noCase held = noCase name := by
  obtain ⟨group, first, rfl⟩ := Option.map_eq_some_iff.mp found
  have matched := List.find?_some first
  simp only [Bool.and_eq_true, beq_iff_eq] at matched
  have stored := shapeOf_of_mem (List.mem_of_find?_eq_some first)
  exact ⟨group.name, by rw [stored, matched.2], matched.1⟩

theorem noCase_ne_of_find_eq_none {groups : Groups} {name : Text} {up : Option GroupId}
    (absent : find groups name up = none) {id : GroupId} {held : Text}
    (stored : shapeOf groups id = some (held, up)) : noCase held ≠ noCase name := by
  obtain ⟨group, member, rfl, rfl, rfl⟩ := shapeOf_eq_some.mp stored
  have other := List.find?_eq_none.mp (Option.map_eq_none_iff.mp absent) group member
  intro same
  simp [same] at other

theorem tidy_empty : (shapeOf Portfolio.empty.groups).Tidy := by
  have empty : ∀ id, shapeOf Portfolio.empty.groups id = none := fun _ => rfl
  exact ⟨⟨fun _ => 0, by simp [Shape.parent, empty]⟩, by simp [empty], by simp [empty]⟩

/-! ## The writes -/

namespace Portfolio

variable (portfolio : Portfolio)

theorem shapeOf_insert (name : Text) (up : Option GroupId) :
    shapeOf (portfolio.insert name up).groups =
      (shapeOf portfolio.groups).set (portfolio.lastId + 1) name up := by
  funext id
  simp only [shapeOf, Portfolio.insert, Table.find_insert, Shape.set]
  split <;> rfl

theorem shapeOf_modify_of_eq {change : Group → Group}
    (keeps : ∀ group, (change group).id = group.id)
    (same : ∀ group, (change group).name = group.name ∧ (change group).parentId = group.parentId) :
    shapeOf (portfolio.modify change keeps).groups = shapeOf portfolio.groups := by
  funext id
  simp only [shapeOf, Portfolio.modify, Table.find_modify, Option.map_map]
  congr 1
  funext group
  simp [same group]

theorem shapeOf_update (update : Update) (id : GroupId) :
    shapeOf (portfolio.update update).groups id =
      if id = update.id then (shapeOf portfolio.groups id).map fun _ => (update.name, update.parentId)
      else shapeOf portfolio.groups id := by
  simp only [shapeOf, Portfolio.update, Portfolio.modify, Table.find_modify]
  cases found : portfolio.groups.find id with
  | none => split <;> rfl
  | some group =>
      have isId := Table.key_of_find found
      split <;> rename_i same <;> simp [isId, same]

theorem shapeOf_place {id parent : GroupId} {name : Text} {up : Option GroupId}
    (stored : shapeOf portfolio.groups id = some (name, up)) :
    shapeOf (portfolio.place id parent).groups =
      (shapeOf portfolio.groups).set id name (some parent) := by
  funext other
  simp only [shapeOf, Portfolio.place, Portfolio.modify, Table.find_modify, Shape.set]
  by_cases same : other = id
  · subst same
    obtain ⟨group, found, equal⟩ := Option.map_eq_some_iff.mp stored
    have isId := Table.key_of_find found
    simp only [Prod.mk.injEq] at equal
    simp [found, isId, equal.1]
  · cases found : portfolio.groups.find other with
    | none => simp [same]
    | some group =>
        have isId := Table.key_of_find found
        simp [same, isId]

theorem shapeOf_bequeath (source target : GroupId) :
    shapeOf (portfolio.bequeath source target).groups = shapeOf portfolio.groups := by
  unfold Portfolio.bequeath
  split
  · rfl
  · refine portfolio.shapeOf_modify_of_eq _ fun group => ?_
    split <;> exact ⟨rfl, rfl⟩

theorem shapeOf_delete (gone : GroupId → Prop) [DecidablePred gone] :
    shapeOf (portfolio.delete fun group => gone group.id).groups =
      (shapeOf portfolio.groups).remove gone := by
  funext id
  simp only [shapeOf, Portfolio.delete, Table.find_filter, Shape.remove]
  cases found : portfolio.groups.find id with
  | none => simp
  | some group =>
      have isId := Table.key_of_find found
      by_cases isGone : gone id <;> simp [Option.filter, isId, isGone]

end Portfolio

end DomainPortfolio
end DomainLens
