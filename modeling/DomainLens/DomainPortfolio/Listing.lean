import DomainLens.DomainPortfolio.Units

/-!
# The listing of the units

In a forest the depth-first listing holds every unit once, and the units
collected from a frontier are those below the first.
-/

namespace DomainLens
namespace DomainPortfolio

open Forest

def Rooted (groups : Groups) : Prop :=
  ∀ group ∈ groups.rows, ∀ parent, group.parentId = some parent → groups.find parent ≠ none

section Listing

variable {groups : Groups}

theorem parentIn_of_mem {group : Group} (member : group ∈ groups.rows) :
    parentIn groups group.id = group.parentId := by
  rw [parentIn, Table.find_of_mem member]
  rfl

theorem parentIn_eq_some {child up : GroupId} :
    parentIn groups child = some up ↔
      ∃ group ∈ groups.rows, group.id = child ∧ group.parentId = some up := by
  simp only [parentIn, Option.bind_eq_some_iff, Table.find_eq_some, and_assoc]

def shownIn (groups : Groups) (id : GroupId) : Option GroupId :=
  (groups.find id).bind (shownParent groups.rows)

theorem shownIn_of_mem {group : Group} (member : group ∈ groups.rows) :
    shownIn groups group.id = shownParent groups.rows group := by
  rw [shownIn, Table.find_of_mem member]
  rfl

theorem shownIn_eq_some {child up : GroupId} :
    shownIn groups child = some up ↔
      ∃ group ∈ groups.rows, group.id = child ∧ shownParent groups.rows group = some up := by
  simp only [shownIn, Option.bind_eq_some_iff, Table.find_eq_some, and_assoc]

theorem shownParent_eq_some {rows : List Group} {group : Group} {up : GroupId} :
    shownParent rows group = some up ↔ group.parentId = some up ∧ up ∈ rows.map Group.id := by
  rw [shownParent, Option.filter_eq_some_iff, decide_eq_true_eq]

theorem ranked_shownIn (ranked : Ranked (parentIn groups)) : Ranked (shownIn groups) :=
  ranked.mono fun child up edge => by
    obtain ⟨group, member, rfl, shown⟩ := shownIn_eq_some.mp edge
    rw [parentIn_of_mem member]
    exact (shownParent_eq_some.mp shown).1

theorem mem_childrenOf {rows : List Group} {parent : Option GroupId} {group : Group} :
    group ∈ childrenOf rows parent ↔ group ∈ rows ∧ shownParent rows group = parent := by
  rw [childrenOf, (List.perm_insertionSort _ _).mem_iff, List.mem_filter, decide_eq_true_eq]

/-- The units in the order of the walk. -/
private def visit (rows : List Group) : Nat → Option GroupId → List GroupId → List Group
  | 0, _, _ => []
  | depth + 1, parent, seen =>
      (childrenOf rows parent).flatMap fun group =>
        if group.id ∈ seen then [] else group :: visit rows depth (some group.id) (group.id :: seen)

private theorem walk_eq_visit (people : List Nat) (rows : List Group) (depth : Nat)
    (parent : Option GroupId) (above : Inherited) (seen : List GroupId) :
    (walk people rows depth parent above seen).map Listed.group = visit rows depth parent seen := by
  induction depth generalizing parent above seen with
  | zero => rfl
  | succ depth induction =>
      rw [walk, visit, List.map_flatMap]
      congr 1
      funext group
      split
      · rfl
      · rw [List.map_cons, induction]
        rfl

/-- The units on the way down to a parent, that one included. -/
private structure Trail (groups : Groups) (seen : List GroupId) (parent : Option GroupId) : Prop where
  distinct : seen.Nodup
  stored : seen ⊆ groups.rows.map Group.id
  above : ∀ id ∈ seen, ∃ low, parent = some low ∧ Below (shownIn groups) low id

private theorem length_trail_le {seen : List GroupId} {parent : Option GroupId}
    (trail : Trail groups seen parent) : seen.length ≤ groups.rows.length := by
  simpa using (List.subperm_of_subset trail.distinct trail.stored).length_le

private theorem trail_cons (ranked : Ranked (shownIn groups)) {seen : List GroupId}
    {parent : Option GroupId} {group : Group} (trail : Trail groups seen parent)
    (member : group ∈ groups.rows) (child : shownParent groups.rows group = parent) :
    group.id ∉ seen ∧ Trail groups (group.id :: seen) (some group.id) := by
  have new : group.id ∉ seen := by
    intro old
    obtain ⟨low, same, below⟩ := trail.above group.id old
    exact ranked.not_below ((shownIn_of_mem member).trans (child.trans same)) below
  refine ⟨new, List.nodup_cons.mpr ⟨new, trail.distinct⟩, ?_, ?_⟩
  · exact List.cons_subset.mpr ⟨List.mem_map.mpr ⟨group, member, rfl⟩, trail.stored⟩
  · intro id held
    refine ⟨group.id, rfl, ?_⟩
    rcases List.mem_cons.mp held with rfl | old
    · exact Below.refl _
    · obtain ⟨low, same, below⟩ := trail.above id old
      exact (Below.step ((shownIn_of_mem member).trans (child.trans same))).trans below

private theorem mem_visit (ranked : Ranked (shownIn groups))
    {depth : Nat} {parent : Option GroupId} {seen : List GroupId}
    (trail : Trail groups seen parent) (deep : groups.rows.length < depth + seen.length)
    {group : Group} :
    group ∈ visit groups.rows depth parent seen ↔
      group ∈ groups.rows ∧ ∃ child ∈ groups.rows, shownParent groups.rows child = parent ∧
        Below (shownIn groups) group.id child.id := by
  induction depth generalizing parent seen with
  | zero => exact absurd (length_trail_le trail) (by omega)
  | succ depth induction =>
      rw [visit, List.mem_flatMap]
      constructor
      · rintro ⟨child, isChild, listed⟩
        obtain ⟨member, under⟩ := (mem_childrenOf).mp isChild
        obtain ⟨new, longer⟩ := trail_cons ranked trail member under
        rw [if_neg new] at listed
        rcases List.mem_cons.mp listed with rfl | later
        · exact ⟨member, group, member, under, Below.refl _⟩
        · obtain ⟨held, other, isOther, below, lower⟩ :=
            (induction longer (by simp only [List.length_cons]; omega)).mp later
          exact ⟨held, child, member, under,
            lower.trans (Below.step ((shownIn_of_mem isOther).trans below))⟩
      · rintro ⟨held, child, member, under, below⟩
        obtain ⟨new, longer⟩ := trail_cons ranked trail member under
        refine ⟨child, (mem_childrenOf).mpr ⟨member, under⟩, ?_⟩
        rw [if_neg new, List.mem_cons]
        rcases below.tail with same | ⟨other, lower, edge⟩
        · exact .inl (List.inj_on_of_nodup_map groups.distinct held member same)
        · obtain ⟨row, isRow, rfl, up⟩ := shownIn_eq_some.mp edge
          exact .inr ((induction longer (by simp only [List.length_cons]; omega)).mpr
            ⟨held, row, isRow, up, lower⟩)

private theorem nodup_childrenOf (parent : Option GroupId) :
    (childrenOf groups.rows parent).Nodup := by
  rw [childrenOf, (List.perm_insertionSort _ _).nodup_iff]
  exact groups.distinct.of_map.filter _

private theorem nodup_visit (ranked : Ranked (shownIn groups))
    {depth : Nat} {parent : Option GroupId} {seen : List GroupId}
    (trail : Trail groups seen parent) (deep : groups.rows.length < depth + seen.length) :
    (visit groups.rows depth parent seen).Nodup := by
  induction depth generalizing parent seen with
  | zero => exact List.nodup_nil
  | succ depth induction =>
      -- What a child's part of the listing holds.
      have part : ∀ child ∈ childrenOf groups.rows parent, ∀ group,
          group ∈ (if child.id ∈ seen then [] else
            child :: visit groups.rows depth (some child.id) (child.id :: seen)) →
          Below (shownIn groups) group.id child.id := by
        intro child isChild group listed
        obtain ⟨member, under⟩ := (mem_childrenOf).mp isChild
        obtain ⟨new, longer⟩ := trail_cons ranked trail member under
        rw [if_neg new] at listed
        rcases List.mem_cons.mp listed with rfl | later
        · exact Below.refl _
        · obtain ⟨_, other, isOther, below, lower⟩ := (mem_visit ranked longer
            (by simp only [List.length_cons]; omega)).mp later
          exact lower.trans (Below.step ((shownIn_of_mem isOther).trans below))
      rw [visit, List.nodup_flatMap]
      refine ⟨fun child isChild => ?_, ?_⟩
      · obtain ⟨member, under⟩ := (mem_childrenOf).mp isChild
        obtain ⟨new, longer⟩ := trail_cons ranked trail member under
        have enough : groups.rows.length < depth + (child.id :: seen).length := by
          simp only [List.length_cons]
          omega
        rw [if_neg new, List.nodup_cons]
        refine ⟨fun again => ?_, induction longer enough⟩
        obtain ⟨_, other, isOther, below, lower⟩ := (mem_visit ranked longer enough).mp again
        exact ranked.not_below ((shownIn_of_mem isOther).trans below) lower
      · refine (nodup_childrenOf parent).imp_of_mem ?_
        intro left right isLeft isRight different group inLeft inRight
        obtain ⟨leftMember, leftUnder⟩ := (mem_childrenOf).mp isLeft
        obtain ⟨rightMember, rightUnder⟩ := (mem_childrenOf).mp isRight
        have siblings : shownIn groups left.id = shownIn groups right.id := by
          rw [shownIn_of_mem leftMember, shownIn_of_mem rightMember, leftUnder, rightUnder]
        -- Of two siblings neither lies below the other.
        have apart : ∀ low high : Group, low.id ≠ high.id →
            shownIn groups low.id = shownIn groups high.id →
            ¬ Below (shownIn groups) low.id high.id := by
          intro low high other same below
          rcases below.head with equal | ⟨up, edge, rest⟩
          · exact other equal
          · exact ranked.not_below (same ▸ edge) rest
        have ids : left.id ≠ right.id :=
          fun same => different (List.inj_on_of_nodup_map groups.distinct leftMember rightMember same)
        rcases (part left isLeft group inLeft).total (part right isRight group inRight) with
          below | below
        · exact apart left right ids siblings below
        · exact apart right left ids.symm siblings.symm below

theorem exists_top (ranked : Ranked (shownIn groups)) {group : Group}
    (member : group ∈ groups.rows) : ∃ top ∈ groups.rows,
      shownParent groups.rows top = none ∧ Below (shownIn groups) group.id top.id := by
  obtain ⟨rank, falls⟩ := ranked
  generalize measure : rank group.id = height
  induction height using Nat.strongRecOn generalizing group with
  | ind height induction =>
      cases parent : shownParent groups.rows group with
      | none => exact ⟨group, member, parent, Below.refl _⟩
      | some up =>
          obtain ⟨row, isRow, rfl⟩ := List.mem_map.mp (shownParent_eq_some.mp parent).2
          have edge : shownIn groups group.id = some row.id := (shownIn_of_mem member).trans parent
          obtain ⟨top, isTop, none, below⟩ := induction (rank row.id)
            (measure ▸ falls _ _ edge) isRow rfl
          exact ⟨top, isTop, none, (Below.step edge).trans below⟩

theorem listGroups_perm (people : List Nat) (ranked : Ranked (parentIn groups)) :
    ((listGroups people groups).map Listed.group).Perm groups.rows := by
  have shown := ranked_shownIn ranked
  have trail : Trail groups [] none :=
    ⟨List.nodup_nil, List.nil_subset _, fun _ held => by cases held⟩
  rw [listGroups, walk_eq_visit]
  refine (List.perm_ext_iff_of_nodup (nodup_visit shown trail (by simp))
    groups.distinct.of_map).mpr fun group => ?_
  rw [mem_visit shown trail (by simp)]
  exact ⟨fun held => held.1, fun member => ⟨member, exists_top shown member⟩⟩

theorem getGroup_eq_find (people : List Nat) (ranked : Ranked (parentIn groups))
    (id : GroupId) : getGroup people groups id = groups.find id := by
  have perm := listGroups_perm people ranked
  let listed : Groups :=
    ⟨(listGroups people groups).map Listed.group, (perm.map Group.id).nodup_iff.mpr groups.distinct⟩
  have mapped : ((listGroups people groups).map Listed.group).find? (fun group => group.id = id) =
      ((listGroups people groups).find? fun shown => shown.group.id = id).map Listed.group :=
    List.find?_map ..
  have read : getGroup people groups id = listed.find id := mapped.symm
  rw [read]
  refine Option.ext fun group => ?_
  rw [Table.find_eq_some, Table.find_eq_some]
  exact and_congr_left' perm.mem_iff

/-! ## Units below a unit -/

/-- What the frontier still owes: the units not found yet, and its own entries. -/
private def owed (rows : List Group) (found frontier : List GroupId) : Nat :=
  (rows.filter fun group => group.id ∉ found).length + frontier.length

private theorem owed_step {rows : List Group} {found frontier : List GroupId} (parent : GroupId) :
    owed rows
        ((rows.filter fun group => group.parentId = some parent ∧ group.id ∉ found).map Group.id ++
          found)
        (((rows.filter fun group => group.parentId = some parent ∧ group.id ∉ found).map
          Group.id).reverse ++ frontier) ≤
      (rows.filter fun group => group.id ∉ found).length + frontier.length := by
  have split : ∀ (gone : List GroupId) (part : List Group), (∀ group ∈ part,
      group.parentId = some parent ∧ group.id ∉ found → group.id ∈ gone) →
      (part.filter fun group => group.id ∉ gone ++ found).length +
          (part.filter fun group => group.parentId = some parent ∧ group.id ∉ found).length ≤
        (part.filter fun group => group.id ∉ found).length := by
    intro gone part
    induction part with
    | nil => simp
    | cons head part induction =>
        intro covered
        have rest := induction fun group member => covered group (List.mem_cons_of_mem head member)
        have first := covered head List.mem_cons_self
        by_cases old : head.id ∈ found
        · simpa [old] using rest
        · by_cases child : head.parentId = some parent
          · have inGone := first ⟨child, old⟩
            simp only [List.filter_cons, List.mem_append, inGone, old, child, not_true, not_false_iff,
              and_self, decide_true, decide_false, true_or, if_true, Bool.false_eq_true, if_false,
              List.length_cons] at rest ⊢
            omega
          · by_cases inGone : head.id ∈ gone <;>
              simp [inGone, old, child] at rest ⊢ <;> omega
  have counted := split _ rows fun group member held =>
    List.mem_map.mpr ⟨group, List.mem_filter.mpr ⟨member, decide_eq_true held⟩, rfl⟩
  simp only [owed, List.length_append, List.length_reverse, List.length_map] at counted ⊢
  omega

private theorem mem_descendantsLoop {id : GroupId} {rows : List Group} {fuel : Nat}
    {found frontier : List GroupId} (perm : rows.Perm groups.rows)
    (enough : owed rows found frontier ≤ fuel) (start : id ∈ found)
    (sound : ∀ low ∈ found, Below (parentIn groups) low id) (within : frontier ⊆ found)
    (closed : ∀ low ∈ found, low ∉ frontier → ∀ group ∈ rows, group.parentId = some low →
      group.id ∈ found) {low : GroupId} :
    low ∈ descendantsLoop rows fuel found frontier ↔ Below (parentIn groups) low id := by
  -- A closed set of units with the first one has all of those below it.
  have complete : ∀ found : List GroupId, id ∈ found → (∀ low ∈ found, ∀ group ∈ rows,
      group.parentId = some low → group.id ∈ found) →
      Below (parentIn groups) low id → low ∈ found := by
    intro found start closed below
    induction below using Relation.ReflTransGen.head_induction_on with
    | refl => exact start
    | head edge _ induction =>
        obtain ⟨group, member, rfl, up⟩ := parentIn_eq_some.mp edge
        exact closed _ induction group (perm.mem_iff.mpr member) up
  induction fuel generalizing found frontier with
  | zero =>
      have empty : frontier = [] := by
        unfold owed at enough
        exact List.length_eq_zero_iff.mp (by omega)
      subst empty
      rw [descendantsLoop]
      exact ⟨sound low, complete found start fun low held => closed low held (by simp)⟩
  | succ fuel induction =>
      cases frontier with
      | nil =>
          rw [descendantsLoop]
          exact ⟨sound low, complete found start fun low held => closed low held (by simp)⟩
      | cons parent frontier =>
          rw [descendantsLoop]
          have below := sound parent (within List.mem_cons_self)
          refine induction ?_ (List.mem_append_right _ start) ?_ ?_ ?_
          · have step := @owed_step rows found frontier parent
            unfold owed at enough
            simp only [List.length_cons] at enough
            omega
          · intro low member
            rcases List.mem_append.mp member with new | old
            · obtain ⟨group, held, rfl⟩ := List.mem_map.mp new
              obtain ⟨isRow, isNew⟩ := List.mem_filter.mp held
              have edge := parentIn_eq_some.mpr
                ⟨group, perm.mem_iff.mp isRow, rfl, (of_decide_eq_true isNew).1⟩
              exact (Below.step edge).trans below
            · exact sound low old
          · intro low member
            rcases List.mem_append.mp member with new | old
            · exact List.mem_append_left _ (List.mem_reverse.mp new)
            · exact List.mem_append_right _ (within (List.mem_cons_of_mem parent old))
          · intro low member settled group isRow up
            rcases List.mem_append.mp member with new | old
            · exact absurd (List.mem_append_left _ (List.mem_reverse.mpr new)) settled
            · by_cases same : low = parent
              · subst same
                by_cases known : group.id ∈ found
                · exact List.mem_append_right _ known
                · exact List.mem_append_left _ (List.mem_map.mpr
                    ⟨group, List.mem_filter.mpr ⟨isRow, decide_eq_true ⟨up, known⟩⟩, rfl⟩)
              · refine List.mem_append_right _ (closed low old (fun held => ?_) group isRow up)
                rcases List.mem_cons.mp held with equal | later
                · exact same equal
                · exact settled (List.mem_append_right _ later)

theorem mem_descendants (people : List Nat) (ranked : Ranked (parentIn groups))
    {id low : GroupId} :
    low ∈ descendants people groups id ↔ Below (parentIn groups) low id := by
  refine mem_descendantsLoop (listGroups_perm people ranked) ?_ List.mem_cons_self ?_
    (List.Subset.refl _) ?_
  · have := List.length_filter_le (fun group : Group => group.id ∉ [id])
      ((listGroups people groups).map Listed.group)
    simp only [owed, List.length_singleton]
    omega
  · intro low held
    rw [List.mem_singleton.mp held]
  · exact fun low held settled => absurd held settled

end Listing

end DomainPortfolio
end DomainLens
