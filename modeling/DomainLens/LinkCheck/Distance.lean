import DomainLens.Library.Edit
import DomainLens.Python.Text

/-!
# Look-alike names

Two names are one typo apart where the edit distance with swaps is one.  The table of the distances of
their fronts is kept two rows at a time.
-/

namespace DomainLens
namespace LinkCheck

open Python

/-! ## The table -/

abbrev Row := List Nat

/-- `cur[j]` of the row of `i`, from the two rows before and the entry to the left. -/
def cell (a b : Text) (prev2 : Option Row) (prev : Row) (i j left : Nat) : Nat :=
  let plain := min (min (prev.getD j 0 + 1) (left + 1))
    (prev.getD (j - 1) 0 + if a[i - 1]? = b[j - 1]? then 0 else 1)
  match prev2 with
  | some earlier =>
      if 1 < i ∧ 1 < j ∧ a[i - 1]? = b[j - 2]? ∧ a[i - 2]? = b[j - 1]? then
        min plain (earlier.getD (j - 2) 0 + 1)
      else plain
  | none => plain

/-- The row of `i`, up to an entry. -/
def rowTo (a b : Text) (prev2 : Option Row) (prev : Row) (i : Nat) : Nat → Row
  | 0 => [i]
  | j + 1 =>
      let cur := rowTo a b prev2 prev i j
      cur ++ [cell a b prev2 prev i (j + 1) (cur.getD j 0)]

/-- `prev2` and `prev` after a number of rows. -/
def rows (a b : Text) : Nat → Option Row × Row
  | 0 => (none, List.range (b.length + 1))
  | i + 1 =>
      let (prev2, prev) := rows a b i
      (some prev, rowTo a b prev2 prev (i + 1) b.length)

/-- `_distance`. -/
def distance (a b : Text) : Nat :=
  if 1 < ((a.length : Int) - b.length).natAbs then 2
  else (rows a b a.length).2.getLastD 0

/-! ## The rows tell fronts apart -/

/-- The entries of a row tell a front of one name apart from every front of the other. -/
structure TellsRow (a b : Text) (i width : Nat) (row : Row) : Prop where
  length_eq : row.length = width + 1
  tells : ∀ j ≤ width, Tells (row.getD j 0) (a.take i).reverse (b.take j).reverse

private theorem take_succ_reverse {text : Text} {i : Nat} (inside : i < text.length) :
    (text.take (i + 1)).reverse = text[i] :: (text.take i).reverse := by
  rw [List.take_succ_eq_append_getElem inside, List.reverse_append, List.reverse_singleton,
    List.singleton_append]

variable {a b : Text} {prev2 : Option Row} {prev : Row} {i : Nat}

private theorem tells_cell {j left : Nat} (isRow : i < a.length) (isColumn : j < b.length)
    (before : TellsRow a b i b.length prev)
    (earlier : ∀ row, prev2 = some row → ∃ k, i = k + 1 ∧ TellsRow a b k b.length row)
    (first : prev2 = none → i = 0)
    (aside : Tells left (a.take (i + 1)).reverse (b.take j).reverse) :
    Tells (cell a b prev2 prev (i + 1) (j + 1) left) (a.take (i + 1)).reverse
      (b.take (j + 1)).reverse := by
  have above := before.tells (j + 1) isColumn
  have across := before.tells j isColumn.le
  rw [take_succ_reverse isColumn] at above ⊢
  rw [take_succ_reverse isRow] at aside ⊢
  have equal : a[i]? = b[j]? ↔ a[i] = b[j] := by
    rw [List.getElem?_eq_getElem isRow, List.getElem?_eq_getElem isColumn, Option.some_inj]
  cases prev2 with
  | none =>
      have start : i = 0 := first rfl
      simp only [cell, Nat.add_sub_cancel, equal]
      refine above.cons aside across ?_
      rintro ⟨back, rest, swapped, -⟩
      simp [start] at swapped
  | some row =>
      obtain ⟨k, rfl, behind⟩ := earlier row rfl
      simp only [cell, Nat.add_sub_cancel, equal]
      have isEarlier : k < a.length := by omega
      by_cases swap : 1 < k + 1 + 1 ∧ 1 < j + 1 ∧ a[k + 1]? = b[j + 1 - 2]? ∧
          a[k + 1 + 1 - 2]? = b[j]?
      · rw [if_pos swap]
        obtain ⟨-, later, crossed, crossing⟩ := swap
        obtain ⟨m, rfl⟩ : ∃ m, j = m + 1 := ⟨j - 1, by omega⟩
        have isBefore : m < b.length := by omega
        have swapped : a[k + 1] = b[m] ∧ a[k] = b[m + 1] := by
          simpa [List.getElem?_eq_getElem, isRow, isColumn, isEarlier, isBefore] using
            And.intro crossed crossing
        refine above.cons_swap aside across (behind.tells m isBefore.le) ?_ ?_
        · rw [take_succ_reverse isEarlier, swapped.2]
        · rw [take_succ_reverse isBefore, swapped.1]
      · rw [if_neg swap]
        refine above.cons aside across ?_
        rintro ⟨back, rest, crossing, crossed⟩
        obtain ⟨m, rfl⟩ : ∃ m, j = m + 1 := by
          cases j with
          | zero => simp at crossed
          | succ m => exact ⟨m, rfl⟩
        have isBefore : m < b.length := by omega
        rw [take_succ_reverse isEarlier, List.cons.injEq] at crossing
        rw [take_succ_reverse isBefore, List.cons.injEq] at crossed
        refine swap ⟨by omega, by omega, ?_, ?_⟩
        · simp [isRow, isBefore, crossed.1]
        · simp [isEarlier, isColumn, crossing.1]

private theorem tells_rowTo (isRow : i < a.length) (before : TellsRow a b i b.length prev)
    (earlier : ∀ row, prev2 = some row → ∃ k, i = k + 1 ∧ TellsRow a b k b.length row)
    (first : prev2 = none → i = 0) {j : Nat} (inside : j ≤ b.length) :
    TellsRow a b (i + 1) j (rowTo a b prev2 prev (i + 1) j) := by
  induction j with
  | zero =>
      refine ⟨rfl, fun other least => ?_⟩
      obtain rfl : other = 0 := by omega
      have told := Tells.nil_right (a.take (i + 1)).reverse
      rw [List.length_reverse, List.length_take, Nat.min_eq_left isRow] at told
      simpa [rowTo] using told
  | succ j induction =>
      obtain ⟨length, tells⟩ := induction (by omega)
      refine ⟨by simp [rowTo, length], fun other most => ?_⟩
      rw [rowTo]
      rcases Nat.lt_or_ge j other with last | former
      · obtain rfl : other = j + 1 := by omega
        rw [List.getD_append_right _ _ _ _ (by omega), length, Nat.sub_self, List.getD_cons_zero]
        exact tells_cell isRow inside before earlier first (tells j le_rfl)
      · rw [List.getD_append _ _ _ _ (by omega)]
        exact tells other former

private theorem tells_rows (inside : i ≤ a.length) :
    TellsRow a b i b.length (rows a b i).2 ∧
      (∀ row, (rows a b i).1 = some row → ∃ k, i = k + 1 ∧ TellsRow a b k b.length row) ∧
      ((rows a b i).1 = none → i = 0) := by
  induction i with
  | zero =>
      refine ⟨⟨by simp [rows], fun j most => ?_⟩, by simp [rows], fun _ => rfl⟩
      have told := Tells.nil_left (b.take j).reverse
      rw [List.length_reverse, List.length_take, Nat.min_eq_left most] at told
      simpa [rows, Nat.lt_succ_of_le most] using told
  | succ i induction =>
      obtain ⟨before, earlier, first⟩ := induction (by omega)
      refine ⟨tells_rowTo inside before earlier first le_rfl, ?_, nofun⟩
      rintro row ⟨⟩
      exact ⟨i, rfl, before⟩

theorem tells_distance (close : ¬ 1 < ((a.length : Int) - b.length).natAbs) :
    Tells (distance a b) a b := by
  obtain ⟨length, tells⟩ := (tells_rows (b := b) (le_refl a.length)).1
  have last : (rows a b a.length).2.getLastD 0 = (rows a b a.length).2.getD b.length 0 := by
    rw [List.getLastD_eq_getLast?, List.getLast?_eq_getElem?, length, Nat.add_sub_cancel]
    rfl
  have told := tells b.length le_rfl
  rw [distance, if_neg close, last]
  rw [List.take_length, List.take_length] at told
  refine ⟨told.zero_iff.trans List.reverse_inj, told.le_one_iff.trans ?_⟩
  rw [List.reverse_inj, Edit.reverse_iff]

/-- The distance is one exactly for names that are one edit apart, and zero exactly for equal ones. -/
theorem distance_iff (a b : Text) :
    (distance a b = 1 ↔ Edit a b) ∧ (distance a b = 0 ↔ a = b) := by
  by_cases far : 1 < ((a.length : Int) - b.length).natAbs
  · have apart : distance a b = 2 := if_pos far
    rw [apart]
    refine ⟨iff_of_false (by decide) fun edit => ?_, iff_of_false (by decide) ?_⟩
    · have bounds := edit.length_le
      omega
    · rintro rfl
      simp at far
  · exact ⟨(tells_distance far).one_iff, (tells_distance far).zero_iff⟩

end LinkCheck
end DomainLens
