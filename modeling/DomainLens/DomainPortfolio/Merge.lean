import DomainLens.DomainPortfolio.Pairs

/-!
# Merging units

A merge folds a branch into another, unit by unit: a unit with a twin under the target is folded into
it in turn, any other moves as a whole.  Where no unit with units of its own is folded into the branch
that is folded, the branch is gone afterwards and the rest is a forest as before.
-/

namespace DomainLens
namespace DomainPortfolio

open Python Forest

/-! ## Contacts and domains -/

def contactIn (groups : Groups) (id : GroupId) : Option (Option Nat) :=
  (groups.find id).map Group.contactId

namespace Portfolio

variable (portfolio : Portfolio)

private theorem contactIn_place (moved parent id : GroupId) :
    contactIn (portfolio.place moved parent).groups id = contactIn portfolio.groups id := by
  simp only [contactIn, Portfolio.place, Portfolio.modify, Table.find_modify, Option.map_map]
  congr 1
  funext group
  simp only [Function.comp]
  split <;> rfl

private theorem contactIn_bequeath (source target id : GroupId) :
    contactIn (portfolio.bequeath source target).groups id =
      if id = target then
        (contactIn portfolio.groups id).map fun contact =>
          contact.or ((contactIn portfolio.groups source).bind truthyNumber)
      else contactIn portfolio.groups id := by
  unfold bequeath
  cases own : portfolio.groups.find source with
  | none => cases found : portfolio.groups.find id <;> simp [contactIn, own, found]
  | some row =>
      simp only [contactIn, own, Portfolio.modify, Table.find_modify, Option.map_map]
      cases found : portfolio.groups.find id with
      | none => simp
      | some group =>
          have isId := Table.key_of_find found
          by_cases same : id = target <;> simp [isId, same]

private theorem contactIn_delete (gone : GroupId → Prop) [DecidablePred gone] (id : GroupId) :
    contactIn (portfolio.delete fun group => gone group.id).groups id =
      if gone id then none else contactIn portfolio.groups id := by
  simp only [contactIn, Portfolio.delete, Table.find_filter]
  cases found : portfolio.groups.find id with
  | none => simp
  | some group =>
      have isId := Table.key_of_find found
      by_cases isGone : gone id <;> simp [Option.filter, isId, isGone]

private theorem domains_bequeath (source target : GroupId) :
    (portfolio.bequeath source target).domains = portfolio.domains := by
  unfold bequeath
  split <;> rfl

end Portfolio

/-! ## Folding -/

section Fold

variable {original : Groups} {source target : GroupId}

/-- What is folded: a branch of a tidy table into a stored unit outside it, no unit with units of its
own going into the branch. -/
structure Foldable (original : Groups) (source target : GroupId) : Prop where
  tidy : (shapeOf original).Tidy
  present : shapeOf original target ≠ none
  apart : ¬ Below (shapeOf original).parent target source
  outside : ∀ low high, Pair original source target low high → unitsUnder original low ≠ [] →
    ¬ Below (shapeOf original).parent high source

/-- A table in the middle of the merge: as it was outside the branch, and inside it every unit that is
left stands where it stood or was moved by a pair. -/
structure Midway (original : Groups) (source target : GroupId) (shape : Shape) : Prop where
  tidy : shape.Tidy
  outside : ∀ id, ¬ Below (shapeOf original).parent id source → shape id = shapeOf original id
  inside : ∀ id name up, Below (shapeOf original).parent id source → shape id = some (name, up) →
    ∃ was, shapeOf original id = some (name, was) ∧ (up = was ∨ ∃ low high, was = some low ∧
      up = some high ∧ Pair original source target low high ∧
      ¬ Below (shapeOf original).parent high source)

def Untouched (original : Groups) (id : GroupId) (shape : Shape) : Prop :=
  ∀ low, Below (shapeOf original).parent low id → shape low = shapeOf original low

private theorem not_below_sibling (tidy : (shapeOf original).Tidy) {left right up : GroupId}
    (leftUp : (shapeOf original).parent left = some up)
    (rightUp : (shapeOf original).parent right = some up) (different : left ≠ right)
    {low : GroupId} (below : Below (shapeOf original).parent low left) :
    ¬ Below (shapeOf original).parent low right := by
  have apart : ∀ {one other : GroupId}, one ≠ other → (shapeOf original).parent one = some up →
      (shapeOf original).parent other = some up → ¬ Below (shapeOf original).parent one other := by
    intro one other differ oneUp otherUp under
    rcases under.head with same | ⟨high, edge, rest⟩
    · exact differ same
    · obtain rfl := Option.some.inj (edge.symm.trans oneUp)
      exact tidy.ranked.not_below otherUp rest
  intro also
  rcases below.total also with under | under
  · exact apart different leftUp rightUp under
  · exact apart different.symm rightUp leftUp under

private theorem Midway.under_was {shape : Shape} (midway : Midway original source target shape)
    {id low : GroupId} {name : Text} (inBranch : Below (shapeOf original).parent low source)
    (stored : shape id = some (name, some low)) :
    shapeOf original id = some (name, some low) := by
  by_cases inside : Below (shapeOf original).parent id source
  · obtain ⟨was, old, same | ⟨_, high, _, isHigh, _, out⟩⟩ := midway.inside id name _ inside stored
    · rw [old, same]
    · obtain rfl := Option.some.inj isHigh
      exact absurd inBranch out
  · rw [← midway.outside id inside, stored]

private theorem Midway.pair_of_find (foldable : Foldable original source target) {groups : Groups}
    (midway : Midway original source target (shapeOf groups)) {low high twin : GroupId}
    {child : Group} (pair : Pair original source target low high)
    (out : ¬ Below (shapeOf original).parent high source)
    (stood : shapeOf groups child.id = shapeOf original child.id)
    (was : shapeOf original child.id = some (child.name, some low))
    (inBranch : Below (shapeOf original).parent low source)
    (found : find groups child.name (some high) = some twin) :
    Pair original source target child.id twin := by
  obtain ⟨held, stored, same⟩ := find_eq_some_of found
  have before : shapeOf original twin = some (held, some high) := by
    by_cases inside : Below (shapeOf original).parent twin source
    · obtain ⟨_, old, kept | ⟨other, top, isOther, isTop, moved, _⟩⟩ :=
        midway.inside twin held _ inside stored
      · rw [old, kept]
      · -- A unit moved here came from the same unit as the child, under the same name.
        obtain rfl := Option.some.inj isTop
        obtain rfl := moved.source_unique foldable.tidy pair
        subst isOther
        obtain rfl := foldable.tidy.named twin child.id held child.name _ old was same
        rw [stood, was] at stored
        obtain ⟨_, ups⟩ := Prod.mk.inj (Option.some.inj stored)
        exact absurd (Option.some.inj ups ▸ inBranch) out
    · rw [← midway.outside twin inside, stored]
  obtain ⟨row, under, isId, isName⟩ := exists_unitsUnder was
  have twins : find original row.name (some high) = some twin :=
    find_eq_of_shapeOf foldable.tidy before (isName ▸ same)
  exact isId ▸ Pair.twin pair under twins

private theorem Midway.place (foldable : Foldable original source target) {portfolio : Portfolio}
    (midway : Midway original source target (shapeOf portfolio.groups)) {low high : GroupId}
    {child : Group} (pair : Pair original source target low high)
    (out : ¬ Below (shapeOf original).parent high source)
    (stood : shapeOf portfolio.groups child.id = shapeOf original child.id)
    (was : shapeOf original child.id = some (child.name, some low))
    (inBranch : Below (shapeOf original).parent low source)
    (alone : find portfolio.groups child.name (some high) = none) :
    Midway original source target (shapeOf (portfolio.place child.id high).groups) := by
  have within : Below (shapeOf original).parent child.id source :=
    (Below.step (Shape.parent_of_eq_some was)).trans inBranch
  rw [portfolio.shapeOf_place (stood.trans was)]
  refine ⟨midway.tidy.set ?_ fun other otherName _ stored => noCase_ne_of_find_eq_none alone stored,
    fun id outside => ?_, fun id name up inside stored => ?_⟩
  · rintro top ⟨⟩
    refine ⟨?_, fun below => ?_⟩
    · rw [midway.outside high out]
      exact pair.target_stored foldable.present
    · -- What is above a unit outside the branch is outside it as well.
      refine Below.closed (fun id => ¬ Below (shapeOf original).parent id source) ?_ below out within
      intro lower upper outside edge upperInside
      rw [Shape.parent, midway.outside lower outside] at edge
      exact outside ((Below.step edge).trans upperInside)
  · have differs : id ≠ child.id := fun same => outside (same ▸ within)
    rw [Shape.set, if_neg differs, midway.outside id outside]
  · by_cases same : id = child.id
    · subst same
      rw [Shape.set, if_pos rfl] at stored
      obtain ⟨rfl, rfl⟩ := Prod.mk.inj (Option.some.inj stored)
      exact ⟨_, was, .inr ⟨low, high, rfl, rfl, pair, out⟩⟩
    · rw [Shape.set, if_neg same] at stored
      exact midway.inside id name up inside stored

/-- What folding one unit of the branch leaves: the unit is gone and nothing outside its own branch
has changed. -/
structure Folded (original : Groups) (source target id : GroupId) (before after : Shape) :
    Prop where
  midway : Midway original source target after
  frame : ∀ other, ¬ Below (shapeOf original).parent other id → after other = before other
  gone : after id = none

/-- The units that are folded into the branch itself carry nothing. -/
structure Light (origin : Portfolio) (source target : GroupId) : Prop where
  domains : ∀ low high, Pair origin.groups source target low high →
    InBranch origin.groups source high → ∀ domain ∈ origin.domains, domain.groupId ≠ some low
  contact : ∀ low high, Pair origin.groups source target low high →
    InBranch origin.groups source high → (contactIn origin.groups low).bind truthyNumber = none

/-- Two units of which the first is folded into the second, which is none of the branch. -/
def Joins (origin : Portfolio) (source target low high : GroupId) : Prop :=
  Pair origin.groups source target low high ∧ ¬ InBranch origin.groups source high

/-- A domain as it was, or of a unit that was folded. -/
def MovedFrom (origin : Portfolio) (source target : GroupId) (was now : Domain) : Prop :=
  now = was ∨ ∃ low high, was.groupId = some low ∧ Joins origin source target low high ∧
    now = { was with groupId := some high }

/-- What the units hold in the middle of the merge: every domain where it was or where its unit was
folded to, and in the branch the contacts there were. -/
structure Held (origin : Portfolio) (source target : GroupId) (portfolio : Portfolio) :
    Prop where
  domains : List.Forall₂ (MovedFrom origin source target) origin.domains portfolio.domains
  contacts : ∀ id, InBranch origin.groups source id → shapeOf portfolio.groups id ≠ none →
    contactIn portfolio.groups id = contactIn origin.groups id

/-- What folding some units of the branch carries: those with a twin outside it are gone, their
domains with them and their contacts with the twin, and those without one are stored. -/
structure Carried (origin : Portfolio) (source target : GroupId) (units : GroupId → Prop)
    (before after : Portfolio) : Prop where
  gone : ∀ low high, units low → Joins origin source target low high →
    shapeOf after.groups low = none
  kept : ∀ low, units low → (∀ high, ¬ Pair origin.groups source target low high) →
    shapeOf after.groups low ≠ none
  older : ∀ id, shapeOf after.groups id ≠ none → shapeOf before.groups id ≠ none
  stays : ∀ domain ∈ after.domains, ∀ id, domain.groupId = some id →
    InBranch origin.groups source id → domain ∈ before.domains
  left : ∀ low high, units low → Joins origin source target low high →
    ∀ domain ∈ after.domains, domain.groupId ≠ some low
  gives : ∀ low high, units low → Joins origin source target low high →
    contactIn after.groups high = (contactIn before.groups high).map fun contact =>
      contact.or ((contactIn origin.groups low).bind truthyNumber)
  frame : ∀ id, shapeOf after.groups id ≠ none →
    (∀ low, units low → ¬ Joins origin source target low id) →
    contactIn after.groups id = contactIn before.groups id

/-- There are too few units for the branch of this one to be deeper than the limit. -/
def Deep (original : Groups) (limit : Nat) (id : GroupId) : Prop :=
  ∃ trail : List GroupId, trail.Nodup ∧ trail ⊆ original.rows.map Group.id ∧
    (∀ high ∈ trail, id ≠ high ∧ Below (shapeOf original).parent id high) ∧
    original.rows.length < limit + trail.length

/-- The specification of `fold` on the units of a branch. -/
def FoldSpec (origin : Portfolio) (source target : GroupId) (limit : Nat)
    (folding : GroupId → GroupId → Portfolio → Option Portfolio) : Prop :=
  ∀ low high portfolio, Midway origin.groups source target (shapeOf portfolio.groups) →
    InBranch origin.groups source low → Pair origin.groups source target low high →
    Untouched origin.groups low (shapeOf portfolio.groups) →
    (Deep origin.groups limit low → folding low high portfolio ≠ none) ∧
    ∀ after, folding low high portfolio = some after →
      Folded origin.groups source target low (shapeOf portfolio.groups) (shapeOf after.groups) ∧
      (Light origin source target → Held origin source target portfolio →
        Held origin source target after ∧
        Carried origin source target (Below (shapeOf origin.groups).parent · low) portfolio after)

/-- What folding the units under one leaves. -/
private structure Looped (origin : Portfolio) (source target low : GroupId) (children : List Group)
    (before after : Portfolio) : Prop where
  midway : Midway origin.groups source target (shapeOf after.groups)
  frame : ∀ other, (∀ child ∈ children, ¬ Below (shapeOf origin.groups).parent other child.id) →
    shapeOf after.groups other = shapeOf before.groups other
  cleared : ∀ id name, shapeOf after.groups id ≠ some (name, some low)
  carry : Light origin source target → Held origin source target before →
    Held origin source target after ∧
    Carried origin source target
      (fun id => ∃ child ∈ children, Below (shapeOf origin.groups).parent id child.id) before after

theorem Joins.stored {origin : Portfolio} (foldable : Foldable origin.groups source target)
    {shape : Shape} (midway : Midway origin.groups source target shape) {low high : GroupId}
    (joins : Joins origin source target low high) : shape high ≠ none := by
  rw [midway.outside high joins.2]
  exact joins.1.target_stored foldable.present

private theorem Carried.trans {origin before middle after : Portfolio}
    (foldable : Foldable origin.groups source target) {left right both : GroupId → Prop}
    (first : Carried origin source target left before middle)
    (second : Carried origin source target right middle after)
    (midway : Midway origin.groups source target (shapeOf after.groups))
    (same : ∀ id, left id → shapeOf after.groups id = shapeOf middle.groups id)
    (apart : ∀ id, left id → ¬ right id) (parts : ∀ id, both id ↔ left id ∨ right id) :
    Carried origin source target both before after where
  gone low high unit joins := by
    rcases (parts low).mp unit with isLeft | isRight
    · rw [same low isLeft]
      exact first.gone low high isLeft joins
    · exact second.gone low high isRight joins
  kept low unit alone := by
    rcases (parts low).mp unit with isLeft | isRight
    · rw [same low isLeft]
      exact first.kept low isLeft alone
    · exact second.kept low isRight alone
  older id stored := first.older id (second.older id stored)
  stays domain member id isId inBranch :=
    first.stays domain (second.stays domain member id isId inBranch) id isId inBranch
  left low high unit joins domain member isLow := by
    rcases (parts low).mp unit with isLeft | isRight
    · exact first.left low high isLeft joins domain
        (second.stays domain member low isLow joins.1.source_below) isLow
    · exact second.left low high isRight joins domain member isLow
  gives low high unit joins := by
    have stored := joins.stored foldable midway
    rcases (parts low).mp unit with isLeft | isRight
    · rw [second.frame high stored, first.gives low high isLeft joins]
      intro other isRight again
      obtain rfl := again.1.source_unique foldable.tidy joins.1
      exact apart other isLeft isRight
    · rw [second.gives low high isRight joins, first.frame high (second.older high stored)]
      intro other isLeft again
      obtain rfl := again.1.source_unique foldable.tidy joins.1
      exact apart other isLeft isRight
  frame id stored none := by
    rw [second.frame id stored fun low isRight => none low ((parts low).mpr (.inr isRight)),
      first.frame id (second.older id stored) fun low isLeft => none low ((parts low).mpr (.inl isLeft))]

private theorem not_joins_below {origin : Portfolio} (foldable : Foldable origin.groups source target)
    {low high : GroupId} {child : Group} (pair : Pair origin.groups source target low high)
    (under : child ∈ unitsUnder origin.groups low)
    (alone : ∀ twin, find origin.groups child.name (some high) = some twin →
      InBranch origin.groups source twin) {id : GroupId}
    (below : Below (shapeOf origin.groups).parent id child.id) (top : GroupId) :
    ¬ Joins origin source target id top := by
  rintro ⟨folds, out⟩
  have edge := Shape.parent_of_eq_some (shapeOf_of_mem_unitsUnder under)
  have stored := shapeOf_of_mem_unitsUnder under
  induction folds with
  | start => exact foldable.tidy.ranked.not_below edge (pair.source_below.trans below)
  | @twin up top' other twin above under' found induction =>
      have edge' := Shape.parent_of_eq_some (shapeOf_of_mem_unitsUnder under')
      rcases below.head with same | ⟨up', isUp, rest⟩
      · have stored' := shapeOf_of_mem_unitsUnder under'
        rw [same, stored] at stored'
        obtain ⟨name, ups⟩ := Prod.mk.inj (Option.some.inj stored')
        obtain rfl := Option.some.inj ups
        obtain rfl := pair.target_unique foldable.tidy above
        exact out (alone twin (name ▸ found))
      · obtain rfl := Option.some.inj (isUp.symm.trans edge')
        exact induction rest fun inside =>
          foldable.outside up' top' above (List.ne_nil_of_mem under') inside

private theorem carried_place {origin portfolio : Portfolio}
    (foldable : Foldable origin.groups source target) {low high : GroupId} {child : Group}
    (pair : Pair origin.groups source target low high)
    (untouched : Untouched origin.groups child.id (shapeOf portfolio.groups))
    (under : child ∈ unitsUnder origin.groups low)
    (alone : ∀ twin, find origin.groups child.name (some high) = some twin →
      InBranch origin.groups source twin) :
    Carried origin source target (Below (shapeOf origin.groups).parent · child.id) portfolio
      (portfolio.place child.id high) := by
  have stood := untouched child.id (Below.refl _)
  have was := shapeOf_of_mem_unitsUnder under
  have placed := @Portfolio.shapeOf_place portfolio child.id high _ _ (stood.trans was)
  have none : ∀ {id : GroupId}, Below (shapeOf origin.groups).parent id child.id →
      ∀ top, ¬ Joins origin source target id top :=
    fun below => not_joins_below foldable pair under alone below
  exact
    { gone := fun low high unit joins => absurd joins (none unit high)
      kept := fun id unit _ => by
        rw [placed, Shape.set]
        split
        · exact Option.some_ne_none _
        · rename_i differs
          rw [untouched id unit]
          rcases unit.head with same | ⟨up, edge, _⟩
          · exact absurd same differs
          · obtain ⟨name, held⟩ := Shape.parent_eq_some.mp edge
            simp [held]
      older := fun id stored => by
        rw [placed, Shape.set] at stored
        split at stored
        · rename_i same
          rw [same, stood, was]
          exact Option.some_ne_none _
        · exact stored
      stays := fun domain member id _ _ => member
      left := fun low high unit joins => absurd joins (none unit high)
      gives := fun low high unit joins => absurd joins (none unit high)
      frame := fun id _ _ => portfolio.contactIn_place child.id high id }

private theorem held_place {origin portfolio : Portfolio} {id high : GroupId} {name : Text}
    {up : Option GroupId} (stored : shapeOf portfolio.groups id = some (name, up))
    (held : Held origin source target portfolio) :
    Held origin source target (portfolio.place id high) where
  domains := held.domains
  contacts other inBranch isStored := by
    rw [portfolio.contactIn_place]
    refine held.contacts other inBranch fun absent => isStored ?_
    rw [portfolio.shapeOf_place stored, Shape.set, if_neg, absent]
    rintro rfl
    rw [stored] at absent
    cases absent

private theorem Deep.child {original : Groups} {limit : Nat} {low : GroupId} {child : Group}
    (tidy : (shapeOf original).Tidy) (deep : Deep original (limit + 1) low)
    (under : child ∈ unitsUnder original low) : Deep original limit child.id := by
  obtain ⟨trail, distinct, stored, above, few⟩ := deep
  obtain ⟨isRow, up⟩ := mem_unitsUnder.mp under
  have edge := Shape.parent_of_eq_some (shapeOf_of_mem_unitsUnder under)
  obtain ⟨row, isLow⟩ := Option.ne_none_iff_exists'.mp (tidy.rooted_groups child isRow low up)
  refine ⟨low :: trail, List.nodup_cons.mpr ⟨fun held => (above low held).1 rfl, distinct⟩,
    List.cons_subset.mpr ⟨List.mem_map.mpr
      ⟨row, Table.mem_of_find isLow, Table.key_of_find isLow⟩, stored⟩, ?_, ?_⟩
  · intro high member
    have rest : Below (shapeOf original).parent low high := by
      rcases List.mem_cons.mp member with rfl | held
      · exact Below.refl _
      · exact (above high held).2
    exact ⟨fun same => tidy.ranked.not_below edge (same ▸ rest), (Below.step edge).trans rest⟩
  · rw [List.length_cons]
    omega

private theorem not_deep_zero {original : Groups} {id : GroupId} : ¬ Deep original 0 id := by
  rintro ⟨trail, distinct, stored, _, few⟩
  have bound := (List.subperm_of_subset distinct stored).length_le
  rw [List.length_map] at bound
  omega

private theorem foldChildren_spec {origin : Portfolio}
    (foldable : Foldable origin.groups source target) {limit : Nat}
    {folding : GroupId → GroupId → Portfolio → Option Portfolio}
    (spec : FoldSpec origin source target limit folding) {low high : GroupId}
    (inBranch : InBranch origin.groups source low)
    (pair : Pair origin.groups source target low high) {children : List Group}
    {portfolio : Portfolio}
    (midway : Midway origin.groups source target (shapeOf portfolio.groups))
    (were : ∀ child ∈ children, shapeOf origin.groups child.id = some (child.name, some low))
    (distinct : (children.map Group.id).Nodup)
    (untouched : ∀ child ∈ children, Untouched origin.groups child.id (shapeOf portfolio.groups))
    (complete : ∀ id name, shapeOf portfolio.groups id = some (name, some low) →
      id ∈ children.map Group.id) :
    ((∀ child ∈ children, Deep origin.groups limit child.id) →
      foldChildren folding high children portfolio ≠ none) ∧
    ∀ after, foldChildren folding high children portfolio = some after →
      Looped origin source target low children portfolio after := by
  induction children generalizing portfolio with
  | nil =>
      refine ⟨fun _ => Option.some_ne_none _, fun after folded => ?_⟩
      obtain rfl := Option.some.inj folded
      exact
        { midway
          frame := fun _ _ => rfl
          cleared := fun id name stored => by simpa using complete id name stored
          carry := fun _ held => ⟨held,
            { gone := fun low high ⟨child, member, _⟩ => absurd member List.not_mem_nil
              kept := fun low ⟨child, member, _⟩ => absurd member List.not_mem_nil
              older := fun _ => id
              stays := fun domain member id _ _ => member
              left := fun low high ⟨child, member, _⟩ => absurd member List.not_mem_nil
              gives := fun low high ⟨child, member, _⟩ => absurd member List.not_mem_nil
              frame := fun id _ _ => rfl }⟩ }
  | cons child children induction =>
      obtain ⟨new, rest⟩ := List.nodup_cons.mp distinct
      have was := were child List.mem_cons_self
      have edge := Shape.parent_of_eq_some was
      obtain ⟨row, under, isId, isName⟩ := exists_unitsUnder was
      have out : ¬ InBranch origin.groups source high :=
        foldable.outside low high pair (List.ne_nil_of_mem under)
      have stood := untouched child List.mem_cons_self child.id (Below.refl _)
      have within : InBranch origin.groups source child.id := (Below.step edge).trans inBranch
      -- The branch of another child is no part of the branch of this one.
      have apart : ∀ other ∈ children, ∀ id, Below (shapeOf origin.groups).parent id other.id →
          ¬ Below (shapeOf origin.groups).parent id child.id := by
        intro other member id below
        refine not_below_sibling foldable.tidy (Shape.parent_of_eq_some
          (were other (List.mem_cons_of_mem child member))) edge (fun same => ?_) below
        exact new (List.mem_map.mpr ⟨other, member, same⟩)
      -- What is done to this child keeps to its branch, and leaves nothing of it under the unit.
      have step : ∀ next : Portfolio, Midway origin.groups source target (shapeOf next.groups) →
          (∀ other, ¬ Below (shapeOf origin.groups).parent other child.id →
            shapeOf next.groups other = shapeOf portfolio.groups other) →
          (∀ name, shapeOf next.groups child.id ≠ some (name, some low)) →
          (Light origin source target → Held origin source target portfolio →
            Held origin source target next ∧ Carried origin source target
              (Below (shapeOf origin.groups).parent · child.id) portfolio next) →
          ((∀ other ∈ children, Deep origin.groups limit other.id) →
            foldChildren folding high children next ≠ none) ∧
          ∀ after, foldChildren folding high children next = some after →
            Looped origin source target low (child :: children) portfolio after := by
        intro next midwayNext frame cleared carry
        obtain ⟨total, looped⟩ := induction midwayNext
          (fun other member => were other (List.mem_cons_of_mem child member)) rest
          (fun other member id below => (frame id (apart other member id below)).trans
            (untouched other (List.mem_cons_of_mem child member) id below))
          (fun id name stored => by
            have old := midwayNext.under_was inBranch stored
            have differs : id ≠ child.id := fun same => cleared name (same ▸ stored)
            have aside : ¬ Below (shapeOf origin.groups).parent id child.id := by
              intro below
              rcases below.head with same | ⟨up, isUp, above⟩
              · exact differs same
              · obtain rfl := Option.some.inj (isUp.symm.trans (Shape.parent_of_eq_some old))
                exact foldable.tidy.ranked.not_below edge above
            rw [frame id aside] at stored
            rcases List.mem_cons.mp (complete id name stored) with same | member
            · exact absurd same differs
            · exact member)
        refine ⟨total, fun after folded => ?_⟩
        have done := looped after folded
        exact
          { midway := done.midway
            frame := fun other aside => by
              rw [done.frame other fun sibling member => aside sibling (List.mem_cons_of_mem child member),
                frame other (aside child List.mem_cons_self)]
            cleared := done.cleared
            carry := fun light held => by
              obtain ⟨heldNext, carried⟩ := carry light held
              obtain ⟨heldAfter, carriedAfter⟩ := done.carry light heldNext
              refine ⟨heldAfter, carried.trans foldable carriedAfter done.midway
                (fun id below => done.frame id fun other member beside =>
                  apart other member id beside below)
                (fun id below ⟨other, member, beside⟩ => apart other member id beside below)
                fun id => ?_⟩
              simp }
      rw [foldChildren]
      split
      · rename_i twin found
        obtain ⟨total, done⟩ := spec child.id twin portfolio midway within
          (midway.pair_of_find foldable pair out stood was inBranch found)
          (untouched child List.mem_cons_self)
        constructor
        · intro deep none
          obtain ⟨next, folds⟩ :=
            Option.ne_none_iff_exists'.mp (total (deep child List.mem_cons_self))
          rw [folds, Option.bind_some] at none
          obtain ⟨folded, carry⟩ := done next folds
          exact (step next folded.midway folded.frame (fun name => by simp [folded.gone]) carry).1
            (fun other member => deep other (List.mem_cons_of_mem child member)) none
        · intro after continued
          obtain ⟨next, folds, continued⟩ := Option.bind_eq_some_iff.mp continued
          obtain ⟨folded, carry⟩ := done next folds
          exact (step next folded.midway folded.frame (fun name => by simp [folded.gone]) carry).2
            after continued
      · rename_i alone
        have placed := @Portfolio.shapeOf_place portfolio child.id high _ _ (stood.trans was)
        obtain ⟨total, done⟩ := step _ (midway.place foldable pair out stood was inBranch alone)
          (fun other aside => by
            have differs : other ≠ child.id := fun same => aside (same ▸ Below.refl _)
            rw [placed, Shape.set, if_neg differs])
          (fun name same => by
            rw [placed, Shape.set, if_pos rfl] at same
            obtain ⟨_, ups⟩ := Prod.mk.inj (Option.some.inj same)
            exact out (Option.some.inj ups ▸ inBranch))
          (fun _ held => ⟨held_place (stood.trans was) held, by
            have carried := carried_place foldable pair
              (isId ▸ untouched child List.mem_cons_self) under
              (fun twin found => by
                by_contra outside
                obtain ⟨name, stored, same⟩ := find_eq_some_of found
                rw [← midway.outside twin outside] at stored
                exact noCase_ne_of_find_eq_none alone stored (isName ▸ same))
            rwa [isId] at carried⟩)
        exact ⟨fun deep => total fun other member => deep other (List.mem_cons_of_mem child member),
          done⟩

private theorem held_moveDomains {origin portfolio : Portfolio}
    (light : Light origin source target) (held : Held origin source target portfolio)
    {low high : GroupId} (pair : Pair origin.groups source target low high) :
    Held origin source target (portfolio.moveDomains low (some high)) ∧
      (∀ domain ∈ (portfolio.moveDomains low (some high)).domains, ∀ id, domain.groupId = some id →
        InBranch origin.groups source id → domain ∈ portfolio.domains ∧ id ≠ low) := by
  -- A domain of a unit of the branch stands where it stood.
  have moved : ∀ {was now : Domain}, MovedFrom origin source target was now →
      was ∈ origin.domains → now.groupId = some low →
      now = was ∧ ¬ InBranch origin.groups source high := by
    rintro was now (rfl | ⟨_, top, _, joins, rfl⟩) member isLow
    · exact ⟨rfl, fun inside => light.domains low high pair inside now member isLow⟩
    · obtain rfl := Option.some.inj isLow
      exact absurd pair.source_below joins.2
  constructor
  · refine ⟨?_, held.contacts⟩
    have pairs := held.domains
    simp only [Portfolio.moveDomains]
    rw [List.forall₂_map_right_iff]
    refine List.forall₂_iff_get.mpr ⟨pairs.length_eq, fun index first second => ?_⟩
    have before := (List.forall₂_iff_get.mp pairs).2 index first second
    split
    · rename_i isLow
      obtain ⟨same, out⟩ := moved before (List.get_mem _ _) isLow
      rw [same] at isLow ⊢
      exact .inr ⟨low, high, isLow, ⟨pair, out⟩, rfl⟩
    · exact before
  · intro domain member id isId inside
    obtain ⟨was, wasMember, rfl⟩ := List.mem_map.mp member
    split at isId
    · rename_i isLow
      obtain ⟨index, bound, rfl⟩ := List.getElem_of_mem wasMember
      have within : index < origin.domains.length := held.domains.length_eq ▸ bound
      have before := held.domains.get within bound
      obtain ⟨_, out⟩ := moved before (List.get_mem _ _) isLow
      obtain rfl := Option.some.inj isId
      exact absurd inside out
    · rename_i differs
      rw [if_neg differs]
      exact ⟨wasMember, fun same => differs (isId.trans (congrArg some same))⟩

theorem contactIn_eq_none {groups : Groups} {id : GroupId} :
    contactIn groups id = none ↔ shapeOf groups id = none := by
  simp [contactIn, shapeOf]

private theorem below_iff_of_untouched {portfolio : Portfolio}
    (midway : Midway original source target (shapeOf portfolio.groups)) {low : GroupId}
    (inBranch : InBranch original source low)
    (untouched : Untouched original low (shapeOf portfolio.groups)) {id : GroupId} :
    Below (shapeOf original).parent id low ↔
      id = low ∨ ∃ child ∈ unitsUnder portfolio.groups low,
        Below (shapeOf original).parent id child.id := by
  constructor
  · intro below
    rcases below.tail with same | ⟨child, rest, edge⟩
    · exact .inl same
    · obtain ⟨name, held⟩ := Shape.parent_eq_some.mp edge
      rw [← untouched child (Below.step edge)] at held
      obtain ⟨row, under, isChild, _⟩ := exists_unitsUnder held
      exact .inr ⟨row, under, isChild ▸ rest⟩
  · rintro (rfl | ⟨child, under, rest⟩)
    · exact Below.refl _
    · exact rest.trans (Below.step (Shape.parent_of_eq_some
        (midway.under_was inBranch (shapeOf_of_mem_unitsUnder under))))

section Close

variable {origin portfolio emptied : Portfolio} {low high : GroupId}

/-- The end of `fold`, once the units under the unit are gone. -/
private def close (emptied : Portfolio) (low high : GroupId) : Portfolio :=
  (emptied.bequeath low high).delete fun group => group.id = low

private theorem shapeOf_close :
    shapeOf (close emptied low high).groups = (shapeOf emptied.groups).remove (· = low) := by
  rw [close, Portfolio.shapeOf_delete _ (· = low), Portfolio.shapeOf_bequeath]

private theorem contactIn_close {id : GroupId} (differs : id ≠ low) :
    contactIn (close emptied low high).groups id =
      if id = high then
        (contactIn emptied.groups id).map fun contact =>
          contact.or ((contactIn emptied.groups low).bind truthyNumber)
      else contactIn emptied.groups id := by
  rw [close, Portfolio.contactIn_delete _ (· = low), if_neg differs, Portfolio.contactIn_bequeath]

private theorem domains_close : (close emptied low high).domains = emptied.domains :=
  Portfolio.domains_bequeath emptied low high

private theorem carry_close (foldable : Foldable origin.groups source target)
    (light : Light origin source target) (held : Held origin source target portfolio)
    (inBranch : InBranch origin.groups source low)
    (midway : Midway origin.groups source target (shapeOf portfolio.groups))
    (pair : Pair origin.groups source target low high)
    (untouched : Untouched origin.groups low (shapeOf portfolio.groups))
    (looped : Looped origin source target low (unitsUnder portfolio.groups low)
      (portfolio.moveDomains low (some high)) emptied) :
    Held origin source target (close emptied low high) ∧
      Carried origin source target (Below (shapeOf origin.groups).parent · low) portfolio
        (close emptied low high) := by
  obtain ⟨heldMoved, stay⟩ := held_moveDomains light held pair
  obtain ⟨heldEnd, carried⟩ := looped.carry light heldMoved
  have branch : ∀ {id : GroupId}, Below (shapeOf origin.groups).parent id low ↔
      id = low ∨ ∃ child ∈ unitsUnder portfolio.groups low,
        Below (shapeOf origin.groups).parent id child.id :=
    below_iff_of_untouched midway inBranch untouched
  have notUnder : ∀ child ∈ unitsUnder portfolio.groups low,
      ¬ Below (shapeOf origin.groups).parent low child.id := fun child under =>
    foldable.tidy.ranked.not_below (Shape.parent_of_eq_some
      (midway.under_was inBranch (shapeOf_of_mem_unitsUnder under)))
  -- The unit itself was not touched, so what it hands on is what it had.
  have own : contactIn emptied.groups low = contactIn origin.groups low := by
    by_cases stored : shapeOf emptied.groups low = none
    · rw [contactIn_eq_none.mpr stored, eq_comm, contactIn_eq_none, ← stored,
        looped.frame low notUnder]
      exact (untouched low (Below.refl _)).symm
    · exact heldEnd.contacts low inBranch stored
  -- A unit of the branch gets no contact.
  have inside : ∀ id, InBranch origin.groups source id → id ≠ low →
      contactIn (close emptied low high).groups id = contactIn emptied.groups id := by
    intro id inside differs
    rw [contactIn_close differs]
    split
    · rename_i same
      subst same
      rw [own, light.contact low id pair inside]
      cases contactIn emptied.groups id <;> simp
    · rfl
  have storedIn : ∀ id, shapeOf (close emptied low high).groups id ≠ none →
      id ≠ low ∧ shapeOf emptied.groups id ≠ none := by
    intro id stored
    rw [shapeOf_close, Shape.remove] at stored
    split at stored
    · exact absurd rfl stored
    · exact ⟨‹_›, stored⟩
  constructor
  · refine ⟨by rw [domains_close]; exact heldEnd.domains, fun id inBranch stored => ?_⟩
    obtain ⟨differs, stored⟩ := storedIn id stored
    rw [inside id inBranch differs, heldEnd.contacts id inBranch stored]
  · refine
      { gone := fun id top unit joins => ?_
        kept := fun id unit alone => ?_
        older := fun id stored => ?_
        stays := fun domain member id isId inBranch => ?_
        left := fun id top unit joins domain member isId => ?_
        gives := fun id top unit joins => ?_
        frame := fun id stored none => ?_ }
    · rw [shapeOf_close, Shape.remove]
      split
      · rfl
      · rename_i differs
        exact carried.gone id top ((branch.mp unit).resolve_left differs) joins
    · have differs : id ≠ low := fun same => alone high (same ▸ pair)
      rw [shapeOf_close, Shape.remove, if_neg differs]
      exact carried.kept id ((branch.mp unit).resolve_left differs) alone
    · exact carried.older id (storedIn id stored).2
    · rw [domains_close] at member
      exact (stay domain (carried.stays domain member id isId inBranch) id isId inBranch).1
    · rw [domains_close] at member
      rcases branch.mp unit with rfl | under
      · exact (stay domain (carried.stays domain member id isId inBranch) id isId inBranch).2 rfl
      · exact carried.left id top under joins domain member isId
    · have differs : top ≠ low := fun same => joins.2 (same ▸ inBranch)
      rw [contactIn_close differs]
      rcases branch.mp unit with rfl | under
      · obtain rfl := pair.target_unique foldable.tidy joins.1
        rw [if_pos rfl, own, carried.frame high (joins.stored foldable looped.midway)]
        · rfl
        · rintro other ⟨child, under, below⟩ again
          obtain rfl := again.1.source_unique foldable.tidy pair
          exact notUnder child under below
      · rw [if_neg, carried.gives id top under joins]
        · rfl
        · rintro rfl
          obtain rfl := joins.1.source_unique foldable.tidy pair
          obtain ⟨child, under, below⟩ := under
          exact notUnder child under below
    · obtain ⟨differs, stored⟩ := storedIn id stored
      rw [contactIn_close differs]
      have same := carried.frame id stored fun other under => none other (branch.mpr (.inr under))
      split
      · rename_i isHigh
        subst isHigh
        have within : InBranch origin.groups source id := by
          by_contra out
          exact none low (Below.refl _) ⟨pair, out⟩
        rw [own, light.contact low id pair within, same]
        change (contactIn portfolio.groups id).map _ = contactIn portfolio.groups id
        cases contactIn portfolio.groups id <;> simp
      · exact same

end Close

theorem fold_spec {origin : Portfolio} (foldable : Foldable origin.groups source target)
    (limit : Nat) : FoldSpec origin source target limit (fold limit) := by
  induction limit with
  | zero =>
      intro low high portfolio _ _ _ _
      exact ⟨fun deep => absurd deep not_deep_zero, nofun⟩
  | succ limit induction =>
      intro low high portfolio midway inBranch pair untouched
      have were : ∀ child ∈ unitsUnder portfolio.groups low,
          shapeOf origin.groups child.id = some (child.name, some low) := fun child under =>
        midway.under_was inBranch (shapeOf_of_mem_unitsUnder under)
      obtain ⟨total, done⟩ := @foldChildren_spec source target origin foldable limit
        (fold limit) induction low high inBranch pair (unitsUnder portfolio.groups low)
        (portfolio.moveDomains low (some high)) midway were
        (portfolio.groups.distinct.sublist (List.filter_sublist.map Group.id))
        (fun child under id below => untouched id (below.trans (Below.step
          (Shape.parent_of_eq_some (were child under)))))
        (fun id name stored => by
          obtain ⟨child, under, isId, _⟩ := exists_unitsUnder stored
          exact List.mem_map.mpr ⟨child, under, isId⟩)
      constructor
      · intro deep none
        refine total (fun child under => ?_) (Option.map_eq_none_iff.mp none)
        obtain ⟨row, under', isId, _⟩ := exists_unitsUnder (were child under)
        exact isId ▸ deep.child foldable.tidy under'
      · intro after folded
        obtain ⟨emptied, loop, rfl⟩ := Option.map_eq_some_iff.mp folded
        have looped := done emptied loop
        refine ⟨?_, fun light held =>
          carry_close foldable light held inBranch midway pair untouched looped⟩
        have shape : shapeOf ((emptied.bequeath low high).delete fun group => group.id = low).groups =
            (shapeOf emptied.groups).remove (· = low) := shapeOf_close
        rw [shape]
        refine ⟨⟨looped.midway.tidy.remove fun child name up stored isLow =>
            absurd (isLow ▸ stored) (looped.cleared child name), fun id outside => ?_,
            fun id name up inside stored => ?_⟩, fun other aside => ?_, ?_⟩
        · have differs : id ≠ low := fun same => outside (same ▸ inBranch)
          rw [Shape.remove, if_neg differs, looped.midway.outside id outside]
        · rw [Shape.remove, Option.ite_none_left_eq_some] at stored
          exact looped.midway.inside id name up inside stored.2
        · have differs : other ≠ low := fun same => aside (same ▸ Below.refl _)
          rw [Shape.remove, if_neg differs]
          exact looped.frame other fun child under below => aside (below.trans (Below.step
            (Shape.parent_of_eq_some (were child under))))
        · rw [Shape.remove, if_pos rfl]

theorem tidy_fold {people : List Nat} {limit : Nat} {portfolio after : Portfolio}
    (tidy : (shapeOf portfolio.groups).Tidy) (stored : portfolio.groups.find target ≠ none)
    (apart : target ∉ descendants people portfolio.groups source)
    (outside : StaysOutside people portfolio.groups source target)
    (folded : fold limit source target portfolio = some after) :
    (shapeOf after.groups).Tidy ∧ after.groups.find source = none := by
  have inBranch : ∀ id, Below (shapeOf portfolio.groups).parent id source ↔
      id ∈ descendants people portfolio.groups source := fun id => by
    rw [mem_descendants people tidy.ranked_groups, parent_shapeOf]
  have foldable : Foldable portfolio.groups source target :=
    { tidy
      present := fun absent => stored (shapeOf_eq_none.mp absent)
      apart := fun below => apart ((inBranch target).mp below)
      outside := fun low high pair some below => some
        (outside (low, high) (pair.mem_pairs tidy.ranked_groups tidy.rooted_groups)
          ((inBranch high).mp below)) }
  have midway : Midway portfolio.groups source target (shapeOf portfolio.groups) :=
    { tidy
      outside := fun _ _ => rfl
      inside := fun _ _ up _ held => ⟨up, held, .inl rfl⟩ }
  obtain ⟨done, -⟩ := (fold_spec foldable limit source target portfolio midway (Below.refl source)
    .start fun _ _ => rfl).2 after folded
  exact ⟨done.midway.tidy, shapeOf_eq_none.mp done.gone⟩

theorem tidy_fold_leaf {limit : Nat} {portfolio after : Portfolio}
    (tidy : (shapeOf portfolio.groups).Tidy) (leaf : unitsUnder portfolio.groups source = [])
    (folded : fold limit source target portfolio = some after) : (shapeOf after.groups).Tidy := by
  cases limit with
  | zero => cases folded
  | succ limit =>
      rw [fold, leaf, foldChildren] at folded
      obtain rfl := Option.some.inj folded
      have shape := Portfolio.shapeOf_delete
        ((portfolio.moveDomains source (some target)).bequeath source target) (· = source)
      rw [Portfolio.shapeOf_bequeath] at shape
      rw [shape]
      refine tidy.remove fun child name up stored gone => ?_
      subst gone
      obtain ⟨row, under, _⟩ := exists_unitsUnder stored
      rw [leaf] at under
      cases under

end Fold

end DomainPortfolio
end DomainLens
