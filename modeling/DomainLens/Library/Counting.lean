import DomainLens.Library.OrderedDict

/-!
# Counting every key once

Of the items that share a key only the first is counted, in the group it is in.  Every group then has
the number of its keys exactly when no two groups share a key.
-/

namespace DomainLens
namespace Counting

variable {Item Key Group : Type*} [DecidableEq Key] [DecidableEq Group]

/-! ## The first of every key -/

/-- The items whose key is neither among some keys nor that of an item before. -/
def firsts (key : Item → Key) : List Key → List Item → List Item
  | _, [] => []
  | seen, item :: items =>
      if key item ∈ seen then firsts key seen items
      else item :: firsts key (key item :: seen) items

variable {key : Item → Key} {seen : List Key} {items : List Item} {item : Item}

theorem mem_of_mem_firsts (member : item ∈ firsts key seen items) : item ∈ items := by
  induction items generalizing seen with
  | nil => exact member
  | cons first items induction =>
      rw [firsts] at member
      split at member
      · exact List.mem_cons_of_mem _ (induction member)
      · rcases List.mem_cons.mp member with rfl | later
        · exact List.mem_cons_self
        · exact List.mem_cons_of_mem _ (induction later)

theorem key_notMem_of_mem_firsts (member : item ∈ firsts key seen items) : key item ∉ seen := by
  induction items generalizing seen with
  | nil => cases member
  | cons first items induction =>
      rw [firsts] at member
      split at member
      · exact induction member
      · rename_i new
        rcases List.mem_cons.mp member with rfl | later
        · exact new
        · exact fun old => induction later (List.mem_cons_of_mem _ old)

theorem nodup_firsts : ((firsts key seen items).map key).Nodup := by
  induction items generalizing seen with
  | nil => exact List.nodup_nil
  | cons first items induction =>
      rw [firsts]
      split
      · exact induction
      · refine List.nodup_cons.mpr ⟨fun again => ?_, induction⟩
        obtain ⟨other, member, same⟩ := List.mem_map.mp again
        exact key_notMem_of_mem_firsts member (same ▸ List.mem_cons_self)

theorem exists_mem_firsts (member : item ∈ items) (new : key item ∉ seen) :
    ∃ first ∈ firsts key seen items, key first = key item := by
  induction items generalizing seen with
  | nil => cases member
  | cons first items induction =>
      rw [firsts]
      by_cases old : key first ∈ seen
      · rw [if_pos old]
        rcases List.mem_cons.mp member with rfl | later
        · exact absurd old new
        · exact induction later new
      · rw [if_neg old]
        by_cases same : key first = key item
        · exact ⟨first, List.mem_cons_self, same⟩
        · rcases List.mem_cons.mp member with rfl | later
          · exact absurd rfl same
          · obtain ⟨kept, isKept, sameKey⟩ := induction later
              (List.not_mem_cons_of_ne_of_not_mem (Ne.symm same) new)
            exact ⟨kept, List.mem_cons_of_mem _ isKept, sameKey⟩

/-! ## The keys of a group -/

/-- How many keys the items of a group have. -/
def keysIn (key : Item → Key) (groupOf : Item → Group) (items : List Item) (group : Group) : Nat :=
  ((items.filter (groupOf · = group)).map key).dedup.length

variable {groupOf : Item → Group} {group : Group}

private theorem nodup_inGroup :
    (((firsts key [] items).filter (groupOf · = group)).map key).Nodup :=
  nodup_firsts.sublist (List.filter_sublist.map key)

private theorem inGroup_subset : ((firsts key [] items).filter (groupOf · = group)).map key ⊆
    ((items.filter (groupOf · = group)).map key).dedup := by
  intro value member
  obtain ⟨item, isFirst, rfl⟩ := List.mem_map.mp member
  obtain ⟨isFirst, inGroup⟩ := List.mem_filter.mp isFirst
  exact List.mem_dedup.mpr
    (List.mem_map_of_mem (List.mem_filter.mpr ⟨mem_of_mem_firsts isFirst, inGroup⟩))

omit [DecidableEq Key] in
private theorem length_eq_iff_subset {few many : List Key} (fewDistinct : few.Nodup)
    (manyDistinct : many.Nodup) (within : few ⊆ many) : few.length = many.length ↔ many ⊆ few := by
  constructor
  · intro same
    exact ((fewDistinct.subperm within).perm_of_length_le same.ge).symm.subset
  · intro back
    exact le_antisymm (fewDistinct.subperm within).length_le (manyDistinct.subperm back).length_le

variable [BEq Group] [LawfulBEq Group]

private theorem count_firsts_eq_keysIn_iff :
    ((firsts key [] items).map groupOf).count group = keysIn key groupOf items group ↔
      ∀ item ∈ items, groupOf item = group →
        ∃ first ∈ firsts key [] items, groupOf first = group ∧ key first = key item := by
  have counted : ((firsts key [] items).map groupOf).count group =
      (((firsts key [] items).filter (groupOf · = group)).map key).length := by
    rw [List.length_map, List.count_eq_countP, List.countP_map, List.countP_eq_length_filter]
    exact congrArg List.length (List.filter_congr fun item _ => beq_eq_decide _ _)
  rw [counted, keysIn,
    length_eq_iff_subset nodup_inGroup (List.nodup_dedup _) inGroup_subset]
  simp only [List.subset_def, List.mem_dedup, List.mem_map, List.mem_filter, decide_eq_true_eq,
    forall_exists_index, and_imp, and_assoc]
  exact ⟨fun all item isItem inGroup => all item isItem inGroup rfl,
    fun all _ item isItem inGroup same => same ▸ all item isItem inGroup⟩

/-- The items that are kept count every key once, in every group, exactly when no key is in two groups. -/
theorem forall_count_firsts_eq_iff :
    (∀ group, ((firsts key [] items).map groupOf).count group = keysIn key groupOf items group) ↔
      ∀ left ∈ items, ∀ right ∈ items, key left = key right → groupOf left = groupOf right := by
  simp only [count_firsts_eq_keysIn_iff]
  constructor
  · intro right left isLeft other isOther sameKey
    obtain ⟨first, isFirst, firstGroup, firstKey⟩ := right _ left isLeft rfl
    obtain ⟨second, isSecond, secondGroup, secondKey⟩ := right _ other isOther rfl
    -- The two were kept for one key, so that they are one item.
    have one : first = second := List.inj_on_of_nodup_map nodup_firsts isFirst isSecond
      (firstKey.trans (sameKey.trans secondKey.symm))
    rw [← firstGroup, one, secondGroup]
  · rintro apart _ item isItem rfl
    obtain ⟨first, isFirst, sameKey⟩ := exists_mem_firsts isItem (List.not_mem_nil (a := key item))
    exact ⟨first, isFirst, apart first (mem_of_mem_firsts isFirst) item isItem sameKey, sameKey⟩

/-! ## The counts -/

def raise (counts : List (Group × Nat)) (group : Group) : List (Group × Nat) :=
  OrderedDict.assign group ((counts.lookup group).getD 0 + 1) counts

variable {counts : List (Group × Nat)} {groups : List Group}

theorem lookup_raise (other : Group) : (raise counts group).lookup other =
    if other = group then some ((counts.lookup group).getD 0 + 1) else counts.lookup other :=
  OrderedDict.lookup_assign other

theorem lookup_foldl_raise : (groups.foldl raise counts).lookup group =
    if group ∈ groups then some ((counts.lookup group).getD 0 + groups.count group)
    else counts.lookup group := by
  induction groups generalizing counts with
  | nil => rfl
  | cons first groups induction =>
      rw [List.foldl_cons, induction, lookup_raise, List.count_cons]
      by_cases same : group = first
      · by_cases later : group ∈ groups
        · simp [← same, later, Nat.add_assoc, Nat.add_comm]
        · simp [← same, later, List.count_eq_zero_of_not_mem later]
      · simp [same, Ne.symm same]

omit [LawfulBEq Group] in
theorem nodup_foldl_raise (distinct : (counts.map Prod.fst).Nodup) :
    ((groups.foldl raise counts).map Prod.fst).Nodup := by
  induction groups generalizing counts with
  | nil => exact distinct
  | cons first groups induction => exact induction (OrderedDict.nodup_assign distinct)

/-- The counts of some groups, from nothing on. -/
def tally (groups : List Group) : List (Group × Nat) := groups.foldl raise []

omit [LawfulBEq Group] in
theorem nodup_tally : ((tally groups).map Prod.fst).Nodup := nodup_foldl_raise List.nodup_nil

theorem mem_tally {number : Nat} :
    (group, number) ∈ tally groups ↔ group ∈ groups ∧ number = groups.count group := by
  have found : (tally groups).lookup group =
      if group ∈ groups then some (groups.count group) else none := by
    rw [tally, lookup_foldl_raise]
    simp
  constructor
  · intro member
    rw [OrderedDict.lookup_of_mem nodup_tally member] at found
    split at found
    · rename_i isGroup
      exact ⟨isGroup, Option.some.inj found⟩
    · cases found
  · rintro ⟨isGroup, rfl⟩
    exact OrderedDict.mem_of_lookup (found.trans (if_pos isGroup))

end Counting
end DomainLens
