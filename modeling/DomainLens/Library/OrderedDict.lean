import Mathlib

/-!
# Dictionaries that keep an order

A dictionary as the list of its entries, in the order in which the keys came.  Assigning to a key that
is there keeps its place; a key can be moved to the end, and the oldest entries can be dropped.
-/

namespace DomainLens
namespace OrderedDict

variable {Key Value : Type*} [DecidableEq Key]

def assign (key : Key) (value : Value) : List (Key × Value) → List (Key × Value)
  | [] => [(key, value)]
  | entry :: entries =>
      if entry.1 = key then (key, value) :: entries else entry :: assign key value entries

def moveToEnd (key : Key) (entries : List (Key × Value)) : List (Key × Value) :=
  entries.filter (·.1 ≠ key) ++ entries.filter (·.1 = key)

/-- Drop the oldest entry as long as there are more than a size. -/
def shrink (size : Nat) : List (Key × Value) → List (Key × Value)
  | [] => []
  | entry :: entries =>
      if size < entries.length + 1 then shrink size entries else entry :: entries

variable {key : Key} {value : Value} {entries : List (Key × Value)} {entry : Key × Value}

section Lookup

variable [BEq Key] [LawfulBEq Key]

omit [DecidableEq Key] in
theorem mem_of_lookup (found : entries.lookup key = some value) : (key, value) ∈ entries := by
  induction entries with
  | nil => cases found
  | cons first entries induction =>
      obtain ⟨held, other⟩ := first
      rw [List.lookup_cons] at found
      split at found
      · rename_i same
        obtain rfl := Option.some.inj found
        obtain rfl := eq_of_beq same
        exact List.mem_cons_self
      · exact List.mem_cons_of_mem _ (induction found)

theorem lookup_cons_eq_ite (first : Key × Value) (other : Key) :
    (first :: entries).lookup other =
      if other = first.1 then some first.2 else entries.lookup other := by
  obtain ⟨held, kept⟩ := first
  rw [List.lookup_cons]
  by_cases same : other = held
  · simp [same]
  · rw [beq_false_of_ne same, if_neg same]

theorem lookup_filterMap (given : Key → Option Value) (keys : List Key) :
    (keys.filterMap fun key => (given key).map fun value => (key, value)).lookup key =
      if key ∈ keys then given key else none := by
  induction keys with
  | nil => rfl
  | cons first keys induction =>
      cases found : given first with
      | none =>
          rw [List.filterMap_cons_none (by rw [found]; rfl), induction]
          by_cases isFirst : key = first
          · simp [isFirst, found]
          · simp [isFirst]
      | some value =>
          rw [List.filterMap_cons_some (b := (first, value)) (by rw [found]; rfl),
            lookup_cons_eq_ite, induction]
          by_cases isFirst : key = first
          · simp [isFirst, found]
          · simp [isFirst]

theorem lookup_of_mem (distinct : (entries.map Prod.fst).Nodup)
    (member : (key, value) ∈ entries) : entries.lookup key = some value := by
  induction entries with
  | nil => cases member
  | cons first entries induction =>
      obtain ⟨new, distinct⟩ := List.nodup_cons.mp distinct
      rw [lookup_cons_eq_ite]
      rcases List.mem_cons.mp member with rfl | later
      · exact if_pos rfl
      · have apart : key ≠ first.1 := fun same => new (same ▸ List.mem_map_of_mem later)
        rw [if_neg apart]
        exact induction distinct later

theorem lookup_assign (other : Key) :
    (assign key value entries).lookup other =
      if other = key then some value else entries.lookup other := by
  induction entries with
  | nil => exact lookup_cons_eq_ite _ _
  | cons first entries induction =>
      rw [assign, lookup_cons_eq_ite]
      by_cases same : first.1 = key
      · rw [if_pos same, lookup_cons_eq_ite, same]
        split <;> rfl
      · rw [if_neg same, lookup_cons_eq_ite, induction]
        by_cases isFirst : other = first.1
        · rw [if_pos isFirst, isFirst, if_neg same, if_pos rfl]
        · rw [if_neg isFirst, if_neg isFirst]

end Lookup

theorem mem_assign (member : entry ∈ assign key value entries) :
    entry = (key, value) ∨ entry ∈ entries := by
  induction entries with
  | nil => exact .inl (List.mem_singleton.mp member)
  | cons first entries induction =>
      rw [assign] at member
      split at member
      · exact (List.mem_cons.mp member).imp id (List.mem_cons_of_mem _)
      · rcases List.mem_cons.mp member with rfl | later
        · exact .inr List.mem_cons_self
        · exact (induction later).imp id (List.mem_cons_of_mem _)

theorem nodup_assign (distinct : (entries.map Prod.fst).Nodup) :
    ((assign key value entries).map Prod.fst).Nodup := by
  induction entries with
  | nil => exact List.nodup_singleton _
  | cons first entries induction =>
      obtain ⟨new, distinct⟩ := List.nodup_cons.mp distinct
      rw [assign]
      split
      · rename_i same
        exact List.nodup_cons.mpr ⟨same ▸ new, distinct⟩
      · rename_i differs
        refine List.nodup_cons.mpr ⟨fun member => ?_, induction distinct⟩
        obtain ⟨entry, member, same⟩ := List.mem_map.mp member
        rcases mem_assign member with rfl | old
        · exact differs same.symm
        · exact new (same ▸ List.mem_map_of_mem old)

theorem assign_of_fresh (fresh : ∀ entry ∈ entries, entry.1 ≠ key) :
    assign key value entries = entries ++ [(key, value)] := by
  induction entries with
  | nil => rfl
  | cons first entries induction =>
      rw [assign, if_neg (fresh first List.mem_cons_self),
        induction fun entry member => fresh entry (List.mem_cons_of_mem _ member)]
      rfl

theorem mem_moveToEnd : entry ∈ moveToEnd key entries ↔ entry ∈ entries := by
  by_cases same : entry.1 = key <;> simp [moveToEnd, same]

omit [DecidableEq Key] in
theorem mem_of_mem_shrink {size : Nat} (member : entry ∈ shrink size entries) : entry ∈ entries := by
  induction entries with
  | nil => exact member
  | cons first entries induction =>
      rw [shrink] at member
      split at member
      · exact List.mem_cons_of_mem _ (induction member)
      · exact member

omit [DecidableEq Key] in
theorem mem_shrink_append {size : Nat} (room : 0 < size) :
    entry ∈ shrink size (entries ++ [entry]) := by
  induction entries with
  | nil =>
      rw [List.nil_append, shrink, List.length_nil, if_neg (by omega)]
      exact List.mem_cons_self
  | cons first entries induction =>
      rw [List.cons_append, shrink]
      split
      · exact induction
      · exact List.mem_cons_of_mem _ (List.mem_append_right _ List.mem_cons_self)

end OrderedDict
end DomainLens
