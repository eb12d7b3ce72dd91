import Mathlib

/-!
# Numerals of one width

Numerals of one width, whose digits are ordered as characters the way they are as numbers, are ordered
as texts the way their numbers are.
-/

namespace DomainLens
namespace Numeral

/-! ## Texts with parts of one length -/

theorem append_lt_append_iff {α : Type*} [LT α] {left right leftRest rightRest : List α}
    (length : left.length = right.length) :
    left ++ leftRest < right ++ rightRest ↔
      left < right ∨ left = right ∧ leftRest < rightRest := by
  induction left generalizing right with
  | nil =>
      obtain rfl := List.length_eq_zero_iff.mp length.symm
      simp
  | cons first left induction =>
      cases right with
      | nil => cases length
      | cons second right =>
          simp only [List.cons_append, List.cons_lt_cons_iff, induction (Nat.succ.inj length),
            List.cons.injEq]
          tauto

/-! ## Numerals -/

variable {digit : Nat → Char} {base : Nat}

/-- The last digits of a number, as many as the width. -/
def numeral (digit : Nat → Char) (base : Nat) : Nat → Nat → List Char
  | 0, _ => []
  | width + 1, value => numeral digit base width (value / base) ++ [digit (value % base)]

@[simp] theorem length_numeral (width value : Nat) :
    (numeral digit base width value).length = width := by
  induction width generalizing value with
  | zero => rfl
  | succ width induction => simp [numeral, induction]

/-- The digits of a base are ordered as characters. -/
def Ordered (digit : Nat → Char) (base : Nat) : Prop :=
  ∀ left < base, ∀ right < base, digit left < digit right ↔ left < right

theorem Ordered.inj (ordered : Ordered digit base) {left right : Nat} (leftSmall : left < base)
    (rightSmall : right < base) : digit left = digit right ↔ left = right := by
  refine ⟨fun same => ?_, fun same => congrArg digit same⟩
  rcases lt_trichotomy left right with less | equal | more
  · exact absurd same ((ordered left leftSmall right rightSmall).mpr less).ne
  · exact equal
  · exact absurd same ((ordered right rightSmall left leftSmall).mpr more).ne'

theorem numeral_inj (ordered : Ordered digit base) (positive : 0 < base) {width left right : Nat}
    (leftSmall : left < base ^ width) (rightSmall : right < base ^ width) :
    numeral digit base width left = numeral digit base width right ↔ left = right := by
  induction width generalizing left right with
  | zero => simp_all
  | succ width induction =>
      have leftQuotient : left / base < base ^ width :=
        Nat.div_lt_of_lt_mul (by rwa [pow_succ'] at leftSmall)
      have rightQuotient : right / base < base ^ width :=
        Nat.div_lt_of_lt_mul (by rwa [pow_succ'] at rightSmall)
      refine ⟨fun same => ?_, fun same => congrArg _ same⟩
      obtain ⟨front, last⟩ := List.append_inj same (by simp)
      have quotient := (induction leftQuotient rightQuotient).mp front
      have remainder := (ordered.inj (Nat.mod_lt left positive) (Nat.mod_lt right positive)).mp
        (List.singleton_inj.mp last)
      rw [← Nat.div_add_mod left base, ← Nat.div_add_mod right base, quotient, remainder]

theorem lt_iff_quotient_lt (positive : 0 < base) (left right : Nat) :
    left < right ↔
      left / base < right / base ∨ left / base = right / base ∧ left % base < right % base := by
  have leftSplit := Nat.div_add_mod left base
  have rightSplit := Nat.div_add_mod right base
  have leftSmall := Nat.mod_lt left positive
  have rightSmall := Nat.mod_lt right positive
  constructor
  · intro less
    rcases (Nat.div_le_div_right less.le).lt_or_eq with quotient | same
    · exact .inl quotient
    · rw [same] at leftSplit
      exact .inr ⟨same, by omega⟩
  · rintro (quotient | ⟨same, remainder⟩)
    · calc
        left < base * (left / base + 1) := by rw [Nat.mul_succ]; omega
        _ ≤ base * (right / base) := Nat.mul_le_mul_left base quotient
        _ ≤ right := Nat.mul_div_le right base
    · rw [same] at leftSplit
      omega

theorem numeral_lt_numeral_iff (ordered : Ordered digit base) (positive : 0 < base)
    {width left right : Nat} (leftSmall : left < base ^ width) (rightSmall : right < base ^ width) :
    numeral digit base width left < numeral digit base width right ↔ left < right := by
  induction width generalizing left right with
  | zero => simp_all [numeral]
  | succ width induction =>
      have leftQuotient : left / base < base ^ width :=
        Nat.div_lt_of_lt_mul (by rwa [pow_succ'] at leftSmall)
      have rightQuotient : right / base < base ^ width :=
        Nat.div_lt_of_lt_mul (by rwa [pow_succ'] at rightSmall)
      simp only [numeral]
      rw [append_lt_append_iff (by simp), induction leftQuotient rightQuotient,
        numeral_inj ordered positive leftQuotient rightQuotient, List.cons_lt_cons_iff,
        ordered _ (Nat.mod_lt _ positive) _ (Nat.mod_lt _ positive),
        lt_iff_quotient_lt positive left]
      simp

theorem numeral_le_numeral_iff (ordered : Ordered digit base) (positive : 0 < base)
    {width left right : Nat} (leftSmall : left < base ^ width) (rightSmall : right < base ^ width) :
    numeral digit base width left ≤ numeral digit base width right ↔ left ≤ right := by
  rw [← Nat.not_lt, ← numeral_lt_numeral_iff ordered positive rightSmall leftSmall]
  exact not_lt.symm

end Numeral
end DomainLens
