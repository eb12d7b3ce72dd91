import Mathlib

/-!
# Edit distance

A list becomes another by changes, each of which inserts, deletes or substitutes one value.  The distance
of two lists is the least number of changes.  It is a metric, and it is found from the distances of the
lists without their first values.
-/

namespace DomainLens
namespace EditDistance

variable {α : Type*}

/-- One list becomes the other by one change behind a common front. -/
inductive Change : List α → List α → Prop
  | insert (value : α) (back : List α) : Change back (value :: back)
  | delete (value : α) (back : List α) : Change (value :: back) back
  | substitute (old new : α) (back : List α) : Change (old :: back) (new :: back)
  | keep (value : α) {before after : List α} (change : Change before after) :
      Change (value :: before) (value :: after)

/-- One list becomes the other by so many changes, one after the other. -/
inductive Turns : ℕ → List α → List α → Prop
  | done (list : List α) : Turns 0 list list
  | change {count : ℕ} {first second last : List α} (change : Change first second)
      (turns : Turns count second last) : Turns (count + 1) first last

/-- The distance is the least number of changes. -/
def IsDistance (distance : ℕ) (before after : List α) : Prop :=
  IsLeast {count | Turns count before after} distance

namespace Change

theorem symm {before after : List α} (change : Change before after) : Change after before := by
  induction change with
  | insert value back => exact .delete value back
  | delete value back => exact .insert value back
  | substitute old new back => exact .substitute new old back
  | keep value change induction => exact induction.keep value

theorem append_left (front : List α) {before after : List α} (change : Change before after) :
    Change (front ++ before) (front ++ after) := by
  induction front with
  | nil => exact change
  | cons value front induction => exact induction.keep value

theorem append_right {before after : List α} (change : Change before after) (back : List α) :
    Change (before ++ back) (after ++ back) := by
  induction change with
  | insert value => exact .insert value _
  | delete value => exact .delete value _
  | substitute old new => exact .substitute old new _
  | keep value change induction => exact induction.keep value

theorem reverse {before after : List α} (change : Change before after) :
    Change before.reverse after.reverse := by
  induction change with
  | insert value back =>
      rw [List.reverse_cons]
      simpa using (insert value []).append_left back.reverse
  | delete value back =>
      rw [List.reverse_cons]
      simpa using (delete value []).append_left back.reverse
  | substitute old new back =>
      rw [List.reverse_cons, List.reverse_cons]
      exact (substitute old new []).append_left back.reverse
  | keep value change induction =>
      rw [List.reverse_cons, List.reverse_cons]
      exact induction.append_right [value]

end Change

namespace Turns

variable {count more : ℕ} {first second last : List α}

theorem one (change : Change first second) : Turns 1 first second :=
  .change change (.done second)

theorem trans (turns : Turns count first second) (later : Turns more second last) :
    Turns (count + more) first last := by
  induction turns with
  | done => rwa [Nat.zero_add]
  | change here turns induction =>
      rw [Nat.succ_add]
      exact .change here (induction later)

theorem symm (turns : Turns count first last) : Turns count last first := by
  induction turns with
  | done list => exact .done list
  | change here turns induction => exact induction.trans (one here.symm)

theorem reverse (turns : Turns count first last) : Turns count first.reverse last.reverse := by
  induction turns with
  | done list => exact .done _
  | change here turns induction => exact .change here.reverse induction

theorem reverse_iff : Turns count first.reverse last.reverse ↔ Turns count first last := by
  refine ⟨fun turns => ?_, reverse⟩
  simpa using turns.reverse

theorem cons (value : α) (turns : Turns count first last) :
    Turns count (value :: first) (value :: last) := by
  induction turns with
  | done list => exact .done _
  | change here turns induction => exact .change (here.keep value) induction

theorem zero_iff : Turns 0 first last ↔ first = last := by
  constructor
  · rintro ⟨⟩
    rfl
  · rintro rfl
    exact .done first

end Turns

/-! ## Lists one above the other

What becomes of each value is written in one pass, and no run of changes does better. -/

/-- One list stands above the other, with so many values that are not above their like. -/
inductive Aligned : ℕ → List α → List α → Prop
  | nil : Aligned 0 [] []
  | keep {count : ℕ} {before after : List α} (value : α) (aligned : Aligned count before after) :
      Aligned count (value :: before) (value :: after)
  | substitute {count : ℕ} {before after : List α} (old new : α)
      (aligned : Aligned count before after) : Aligned (count + 1) (old :: before) (new :: after)
  | insert {count : ℕ} {before after : List α} (value : α) (aligned : Aligned count before after) :
      Aligned (count + 1) before (value :: after)
  | delete {count : ℕ} {before after : List α} (value : α) (aligned : Aligned count before after) :
      Aligned (count + 1) (value :: before) after

namespace Aligned

variable {count : ℕ} {before after : List α}

theorem refl (list : List α) : Aligned 0 list list := by
  induction list with
  | nil => exact .nil
  | cons value list induction => exact induction.keep value

theorem turns (aligned : Aligned count before after) : Turns count before after := by
  induction aligned with
  | nil => exact .done []
  | keep value aligned induction => exact induction.cons value
  | substitute old new aligned induction => exact .change (.substitute old new _) (induction.cons new)
  | insert value aligned induction => exact induction.trans (.one (.insert value _))
  | delete value aligned induction => exact .change (.delete value _) induction

theorem of_change {start : List α} (change : Change start before) (aligned : Aligned count before after) :
    ∃ least ≤ count + 1, Aligned least start after := by
  induction aligned generalizing start with
  | nil =>
      cases change with
      | delete value => exact ⟨1, le_rfl, .delete value .nil⟩
  | keep value aligned induction =>
      cases change with
      | insert => exact ⟨_, le_rfl, aligned.insert value⟩
      | delete other => exact ⟨_, le_rfl, (aligned.keep value).delete other⟩
      | substitute old => exact ⟨_, le_rfl, aligned.substitute old value⟩
      | keep _ change =>
          obtain ⟨least, most, again⟩ := induction change
          exact ⟨least, most, again.keep value⟩
  | substitute old new aligned induction =>
      cases change with
      | insert => exact ⟨_, Nat.le_succ _, aligned.insert new⟩
      | delete other => exact ⟨_, le_rfl, (aligned.substitute old new).delete other⟩
      | substitute other => exact ⟨_, Nat.le_succ _, aligned.substitute other new⟩
      | keep _ change =>
          obtain ⟨least, most, again⟩ := induction change
          exact ⟨least + 1, Nat.succ_le_succ most, again.substitute old new⟩
  | insert value aligned induction =>
      obtain ⟨least, most, again⟩ := induction change
      exact ⟨least + 1, Nat.succ_le_succ most, again.insert value⟩
  | delete value aligned induction =>
      cases change with
      | insert => exact ⟨_, by omega, aligned⟩
      | delete other => exact ⟨_, le_rfl, (aligned.delete value).delete other⟩
      | substitute old => exact ⟨_, Nat.le_succ _, aligned.delete old⟩
      | keep _ change =>
          obtain ⟨least, most, again⟩ := induction change
          exact ⟨least + 1, Nat.succ_le_succ most, again.delete value⟩

theorem of_turns (turns : Turns count before after) : ∃ least ≤ count, Aligned least before after := by
  induction turns with
  | done list => exact ⟨0, le_rfl, refl list⟩
  | change here turns induction =>
      obtain ⟨least, most, aligned⟩ := induction
      obtain ⟨fewest, below, again⟩ := aligned.of_change here
      exact ⟨fewest, by omega, again⟩

theorem eq_length (aligned : Aligned count [] after) : count = after.length := by
  induction after generalizing count with
  | nil =>
      cases aligned
      rfl
  | cons value after induction =>
      cases aligned with
      | insert _ aligned => rw [induction aligned, List.length_cons]

theorem length_nil_left (after : List α) : Aligned after.length [] after := by
  induction after with
  | nil => exact .nil
  | cons value after induction => exact induction.insert value

theorem exists_le_max (before after : List α) :
    ∃ count ≤ max before.length after.length, Aligned count before after := by
  induction before generalizing after with
  | nil => exact ⟨_, le_max_right _ _, length_nil_left after⟩
  | cons value before induction =>
      cases after with
      | nil =>
          obtain ⟨count, most, aligned⟩ := induction []
          refine ⟨count + 1, ?_, aligned.delete value⟩
          rw [List.length_nil, Nat.max_zero] at most ⊢
          exact Nat.succ_le_succ most
      | cons other after =>
          obtain ⟨count, most, aligned⟩ := induction after
          refine ⟨count + 1, ?_, aligned.substitute value other⟩
          rw [List.length_cons, List.length_cons, Nat.succ_max_succ]
          exact Nat.succ_le_succ most

end Aligned

/-! ## The distance -/

namespace IsDistance

variable {distance : ℕ} {before after : List α}

theorem iff_aligned : IsDistance distance before after ↔
    IsLeast {count | Aligned count before after} distance := by
  constructor
  · rintro ⟨turns, least⟩
    obtain ⟨count, most, aligned⟩ := Aligned.of_turns turns
    obtain rfl : count = distance := le_antisymm most (least aligned.turns)
    exact ⟨aligned, fun other isOther => least isOther.turns⟩
  · rintro ⟨aligned, least⟩
    refine ⟨aligned.turns, fun other turns => ?_⟩
    obtain ⟨count, most, isCount⟩ := Aligned.of_turns turns
    exact (least isCount).trans most

theorem symm (isDistance : IsDistance distance before after) : IsDistance distance after before :=
  ⟨isDistance.1.symm, fun _ turns => isDistance.2 turns.symm⟩

theorem reverse (isDistance : IsDistance distance before.reverse after.reverse) :
    IsDistance distance before after :=
  ⟨Turns.reverse_iff.mp isDistance.1, fun _ turns => isDistance.2 turns.reverse⟩

theorem zero_iff (isDistance : IsDistance distance before after) : distance = 0 ↔ before = after := by
  constructor
  · rintro rfl
    exact Turns.zero_iff.mp isDistance.1
  · intro same
    exact Nat.le_zero.mp (isDistance.2 (Turns.zero_iff.mpr same))

theorem triangle {last : List α} {onward whole : ℕ} (isDistance : IsDistance distance before after)
    (isOnward : IsDistance onward after last) (isWhole : IsDistance whole before last) :
    whole ≤ distance + onward :=
  isWhole.2 (isDistance.1.trans isOnward.1)

theorem le_max (isDistance : IsDistance distance before after) :
    distance ≤ max before.length after.length := by
  obtain ⟨count, most, aligned⟩ := Aligned.exists_le_max before after
  exact (isDistance.2 aligned.turns).trans most

theorem nil_left (after : List α) : IsDistance after.length [] after :=
  iff_aligned.mpr ⟨Aligned.length_nil_left after, fun _ aligned => aligned.eq_length.ge⟩

theorem nil_right (before : List α) : IsDistance before.length before [] := (nil_left before).symm

/-- The distance from those without one first value, without the other and without both. -/
theorem cons [DecidableEq α] {first second : α} {up left diagonal : ℕ}
    (above : IsDistance up before (second :: after)) (aside : IsDistance left (first :: before) after)
    (across : IsDistance diagonal before after) :
    IsDistance (min (min (up + 1) (left + 1)) (diagonal + if first = second then 0 else 1))
      (first :: before) (second :: after) := by
  rw [iff_aligned] at above aside across ⊢
  constructor
  · rcases min_choice (min (up + 1) (left + 1)) (diagonal + if first = second then 0 else 1) with
      least | least
    · rw [least]
      rcases min_choice (up + 1) (left + 1) with least | least
      · rw [least]
        exact above.1.delete first
      · rw [least]
        exact aside.1.insert second
    · rw [least]
      split_ifs with same
      · subst same
        exact across.1.keep first
      · exact across.1.substitute first second
  · intro count aligned
    rw [min_le_iff, min_le_iff]
    cases aligned with
    | keep _ aligned =>
        refine .inr ?_
        rw [if_pos rfl]
        exact across.2 aligned
    | substitute _ _ aligned =>
        refine .inr ?_
        have least := across.2 aligned
        split_ifs <;> omega
    | insert _ aligned => exact .inl (.inr (Nat.succ_le_succ (aside.2 aligned)))
    | delete _ aligned => exact .inl (.inl (Nat.succ_le_succ (above.2 aligned)))

end IsDistance

end EditDistance
end DomainLens
