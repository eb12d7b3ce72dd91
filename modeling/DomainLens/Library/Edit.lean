import Mathlib

/-!
# Single edits

A list is one edit away from another by an insertion, a deletion, a substitution or a swap of two
neighbours.  A number tells two lists apart when it is zero for equal lists alone and at most one for
those one edit apart alone.  Such numbers are computed for two lists from those for shorter ones.
-/

namespace DomainLens

variable {α : Type*}

/-- One list becomes the other by one edit behind a common front. -/
inductive Edit : List α → List α → Prop
  | insert (value : α) (back : List α) : Edit back (value :: back)
  | delete (value : α) (back : List α) : Edit (value :: back) back
  | substitute {old new : α} (changed : old ≠ new) (back : List α) : Edit (old :: back) (new :: back)
  | swap {first second : α} (changed : first ≠ second) (back : List α) :
      Edit (first :: second :: back) (second :: first :: back)
  | keep (value : α) {before after : List α} (edit : Edit before after) :
      Edit (value :: before) (value :: after)

namespace Edit

/-! ## Where an edit stands -/

theorem append_left (front : List α) {before after : List α} (edit : Edit before after) :
    Edit (front ++ before) (front ++ after) := by
  induction front with
  | nil => exact edit
  | cons value front induction => exact induction.keep value

theorem append_right {before after : List α} (edit : Edit before after) (back : List α) :
    Edit (before ++ back) (after ++ back) := by
  induction edit with
  | insert value => exact .insert value _
  | delete value => exact .delete value _
  | substitute changed => exact .substitute changed _
  | swap changed => exact .swap changed _
  | keep value edit induction => exact induction.keep value

theorem reverse {before after : List α} (edit : Edit before after) :
    Edit before.reverse after.reverse := by
  induction edit with
  | insert value back =>
      rw [List.reverse_cons]
      simpa using (insert value []).append_left back.reverse
  | delete value back =>
      rw [List.reverse_cons]
      simpa using (delete value []).append_left back.reverse
  | substitute changed back =>
      rw [List.reverse_cons, List.reverse_cons]
      exact (substitute changed []).append_left back.reverse
  | swap changed back =>
      simp only [List.reverse_cons, List.append_assoc]
      exact (swap changed.symm []).append_left back.reverse
  | keep value edit induction =>
      rw [List.reverse_cons, List.reverse_cons]
      exact induction.append_right [value]

theorem reverse_iff {before after : List α} :
    Edit before.reverse after.reverse ↔ Edit before after := by
  refine ⟨fun edit => ?_, reverse⟩
  simpa using edit.reverse

theorem length_le {before after : List α} (edit : Edit before after) :
    before.length ≤ after.length + 1 ∧ after.length ≤ before.length + 1 := by
  induction edit with
  | keep value edit induction => simp only [List.length_cons]; omega
  | _ => simp only [List.length_cons]; omega

theorem ne {before after : List α} (edit : Edit before after) : before ≠ after := by
  induction edit with
  | insert value back => simp
  | delete value back => simp
  | substitute changed => simp [changed]
  | swap changed => simp [changed]
  | keep value edit induction => simp [induction]

theorem nil_left {after : List α} : Edit [] after ↔ ∃ value, after = [value] := by
  constructor
  · rintro ⟨⟩
    exact ⟨_, rfl⟩
  · rintro ⟨value, rfl⟩
    exact .insert value []

theorem nil_right {before : List α} : Edit before [] ↔ ∃ value, before = [value] := by
  constructor
  · rintro ⟨⟩
    exact ⟨_, rfl⟩
  · rintro ⟨value, rfl⟩
    exact .delete value []

theorem cons_iff {first second : α} {before after : List α} :
    Edit (first :: before) (second :: after) ↔
      before = second :: after ∨ first :: before = after ∨ first = second ∧ Edit before after ∨
        first ≠ second ∧ (before = after ∨
          ∃ back, before = second :: back ∧ after = first :: back) := by
  constructor
  · rintro (_ | _ | ⟨changed, _⟩ | ⟨changed, back⟩ | ⟨_, edit⟩)
    · exact .inr (.inl rfl)
    · exact .inl rfl
    · exact .inr (.inr (.inr ⟨changed, .inl rfl⟩))
    · exact .inr (.inr (.inr ⟨changed, .inr ⟨back, rfl, rfl⟩⟩))
    · exact .inr (.inr (.inl ⟨rfl, edit⟩))
  · rintro (rfl | rfl | ⟨rfl, edit⟩ | ⟨changed, rfl | ⟨back, rfl, rfl⟩⟩)
    · exact .delete first _
    · exact .insert second _
    · exact edit.keep first
    · exact .substitute changed _
    · exact .swap changed back

end Edit

/-! ## Numbers that tell lists apart -/

/-- The number is zero for equal lists alone, and at most one for those one edit apart alone. -/
structure Tells (number : Nat) (before after : List α) : Prop where
  zero_iff : number = 0 ↔ before = after
  le_one_iff : number ≤ 1 ↔ before = after ∨ Edit before after

namespace Tells

theorem one_iff {number : Nat} {before after : List α} (tells : Tells number before after) :
    number = 1 ↔ Edit before after := by
  constructor
  · intro one
    refine (tells.le_one_iff.mp one.le).resolve_left fun same => ?_
    exact absurd (tells.zero_iff.mpr same) (one ▸ Nat.one_ne_zero)
  · intro edit
    have most := tells.le_one_iff.mpr (.inr edit)
    have least := mt tells.zero_iff.mp edit.ne
    omega

theorem nil_left (after : List α) : Tells after.length [] after where
  zero_iff := by rw [List.length_eq_zero_iff, eq_comm]
  le_one_iff := by
    rw [Edit.nil_left, Nat.le_one_iff_eq_zero_or_eq_one, List.length_eq_zero_iff,
      List.length_eq_one_iff, eq_comm]

theorem nil_right (before : List α) : Tells before.length before [] where
  zero_iff := List.length_eq_zero_iff
  le_one_iff := by
    rw [Edit.nil_right, Nat.le_one_iff_eq_zero_or_eq_one, List.length_eq_zero_iff,
      List.length_eq_one_iff]

variable [DecidableEq α] {first second : α} {before after : List α} {up left diagonal : Nat}

/-- The number from those without one first value, without the other and without both. -/
theorem cons (above : Tells up before (second :: after)) (aside : Tells left (first :: before) after)
    (across : Tells diagonal before after)
    (apart : ¬ ∃ back rest, before = second :: back ∧ after = first :: rest) :
    Tells (min (min (up + 1) (left + 1)) (diagonal + if first = second then 0 else 1))
      (first :: before) (second :: after) where
  zero_iff := by
    have zero := across.zero_iff
    rw [List.cons.injEq, ← zero]
    split_ifs with same
    · simp [same]
    · simp [same]
  le_one_iff := by
    have noSwap : ¬ ∃ back, before = second :: back ∧ after = first :: back :=
      fun ⟨back, both⟩ => apart ⟨back, back, both⟩
    rw [Edit.cons_iff, List.cons.injEq, ← above.zero_iff, ← aside.zero_iff]
    split_ifs with same
    · have one := across.le_one_iff
      simp only [same, true_and, ne_eq, not_true_eq_false, false_and, or_false, add_zero]
      rw [min_le_iff, min_le_iff, one]
      constructor
      · rintro ((zero | zero) | equal | edit)
        · exact .inr (.inl (by omega))
        · exact .inr (.inr (.inl (by omega)))
        · exact .inl equal
        · exact .inr (.inr (.inr edit))
      · rintro (equal | zero | zero | edit)
        · exact .inr (.inl equal)
        · exact .inl (.inl (by omega))
        · exact .inl (.inr (by omega))
        · exact .inr (.inr edit)
    · simp only [same, false_and, noSwap, or_false, false_or, ne_eq, not_false_eq_true, true_and,
        ← across.zero_iff]
      omega

theorem cons_swap {back rest : List α} {beyond : Nat}
    (above : Tells up before (second :: after)) (aside : Tells left (first :: before) after)
    (across : Tells diagonal before after) (behind : Tells beyond back rest)
    (first_swapped : before = second :: back) (second_swapped : after = first :: rest) :
    Tells (min (min (min (up + 1) (left + 1)) (diagonal + if first = second then 0 else 1))
      (beyond + 1)) (first :: before) (second :: after) where
  zero_iff := by
    have zero := across.zero_iff
    rw [List.cons.injEq, ← zero]
    split_ifs with same
    · simp [same]
    · simp [same]
  le_one_iff := by
    have swapped : (∃ back, before = second :: back ∧ after = first :: back) ↔ beyond = 0 := by
      rw [behind.zero_iff, first_swapped, second_swapped]
      simp [eq_comm]
    rw [Edit.cons_iff, List.cons.injEq, ← above.zero_iff, ← aside.zero_iff, swapped]
    split_ifs with same
    · have one := across.le_one_iff
      have equal : beyond = 0 → before = after := by
        rw [behind.zero_iff, first_swapped, second_swapped, same]
        exact congrArg (second :: ·)
      simp only [same, true_and, ne_eq, not_true_eq_false, false_and, or_false, add_zero]
      rw [min_le_iff, min_le_iff, min_le_iff, one]
      constructor
      · rintro (((zero | zero) | equal | edit) | zero)
        · exact .inr (.inl (by omega))
        · exact .inr (.inr (.inl (by omega)))
        · exact .inl equal
        · exact .inr (.inr (.inr edit))
        · exact .inl (equal (by omega))
      · rintro (equal | zero | zero | edit)
        · exact .inl (.inr (.inl equal))
        · exact .inl (.inl (.inl (by omega)))
        · exact .inl (.inl (.inr (by omega)))
        · exact .inl (.inr (.inr edit))
    · simp only [same, false_and, false_or, ne_eq, not_false_eq_true, true_and, ← across.zero_iff]
      omega

end Tells

end DomainLens
