import DomainLens.Library.Numeral

/-!
# Decimal numerals of one width

Decimal numerals that are padded to one width are ordered as texts the way their numbers are.
-/

namespace DomainLens
namespace Decimal

open Numeral

def digit (value : Nat) : Char := Char.ofNat (48 + value)

/-- The last digits of a number, as many as the width. -/
def padded : Nat → Nat → List Char
  | 0, _ => []
  | width + 1, value => padded width (value / 10) ++ [digit (value % 10)]

@[simp] theorem length_padded (width value : Nat) : (padded width value).length = width := by
  induction width generalizing value with
  | zero => rfl
  | succ width induction => simp [padded, induction]

theorem digits_ordered : Ordered digit 10 := by
  intro left leftSmall right rightSmall
  interval_cases left <;> interval_cases right <;> decide

theorem padded_eq_numeral (width value : Nat) : padded width value = numeral digit 10 width value := by
  induction width generalizing value with
  | zero => rfl
  | succ width induction => rw [padded, numeral, induction]

theorem padded_inj {width left right : Nat} (leftSmall : left < 10 ^ width)
    (rightSmall : right < 10 ^ width) : padded width left = padded width right ↔ left = right := by
  simp only [padded_eq_numeral]
  exact numeral_inj digits_ordered (by decide) leftSmall rightSmall

theorem padded_lt_padded_iff {width left right : Nat} (leftSmall : left < 10 ^ width)
    (rightSmall : right < 10 ^ width) :
    padded width left < padded width right ↔ left < right := by
  simp only [padded_eq_numeral]
  exact numeral_lt_numeral_iff digits_ordered (by decide) leftSmall rightSmall

end Decimal
end DomainLens
