import Mathlib

/-!
# Rounding to doubles

The doubles of the normal range are the multiples of a power of two by integers of 53 bits.  An exact
result is rounded to the nearest one, to the even one of two, and stays in an interval whose ends are
doubles.
-/

namespace DomainLens
namespace Double

/-- The nearest integer, the even one of two. -/
def roundEven (value : ℚ) : ℤ :=
  let rest := value - ⌊value⌋
  if rest < 1 / 2 then ⌊value⌋
  else if 1 / 2 < rest then ⌊value⌋ + 1
  else if ⌊value⌋ % 2 = 0 then ⌊value⌋
  else ⌊value⌋ + 1

/-- The last bit of the doubles about a value. -/
def lastBit (value : ℚ) : ℚ := 2 ^ (Int.log 2 |value| - 52)

def nearest (value : ℚ) : ℚ := if value = 0 then 0 else roundEven (value / lastBit value) * lastBit value

/-- `round` of a double to a number of decimals. -/
def roundTo (decimals : ℕ) (value : ℚ) : ℚ := nearest (roundEven (value * 10 ^ decimals) / 10 ^ decimals)

theorem roundEven_nonneg {value : ℚ} (positive : 0 ≤ value) : 0 ≤ roundEven value := by
  have floor : 0 ≤ ⌊value⌋ := Int.floor_nonneg.mpr positive
  rw [roundEven]
  split_ifs <;> omega

theorem roundEven_le {value : ℚ} {most : ℤ} (below : value ≤ most) : roundEven value ≤ most := by
  have floor : ⌊value⌋ ≤ most := (Int.floor_le_floor below).trans_eq (Int.floor_intCast most)
  rcases floor.lt_or_eq with less | same
  · rw [roundEven]
    split_ifs <;> omega
  · have whole : value - ⌊value⌋ < 1 / 2 := by
      rw [same]
      linarith
    rw [roundEven, if_pos whole]
    exact floor

theorem le_roundEven {value : ℚ} {least : ℤ} (above : least ≤ value) : least ≤ roundEven value := by
  have floor : least ≤ ⌊value⌋ := Int.le_floor.mpr above
  rw [roundEven]
  split_ifs <;> omega

theorem roundEven_intCast (value : ℤ) : roundEven value = value := by
  rw [roundEven, Int.floor_intCast, sub_self, if_pos (by norm_num)]

theorem lastBit_pos (value : ℚ) : 0 < lastBit value := by
  rw [lastBit]
  positivity

theorem nearest_nonneg {value : ℚ} (positive : 0 ≤ value) : 0 ≤ nearest value := by
  rw [nearest]
  split_ifs
  · exact le_rfl
  · have rounded : 0 ≤ roundEven (value / lastBit value) :=
      roundEven_nonneg (div_nonneg positive (lastBit_pos value).le)
    exact mul_nonneg (Int.cast_nonneg rounded) (lastBit_pos value).le

theorem nearest_le_one {value : ℚ} (positive : 0 ≤ value) (below : value ≤ 1) : nearest value ≤ 1 := by
  rw [nearest]
  split_ifs with zero
  · exact zero_le_one
  · have exponent : Int.log 2 |value| ≤ 0 := by
      have mono := @Int.log_mono_right ℚ _ _ _ _ 2 _ _ (abs_pos.mpr zero)
        ((abs_of_nonneg positive).trans_le below)
      rwa [Int.log_one_right] at mono
    obtain ⟨power, isPower⟩ := Int.eq_ofNat_of_zero_le (by omega : 0 ≤ 52 - Int.log 2 |value|)
    have bits : (2 ^ power : ℚ) * lastBit value = 1 := by
      rw [lastBit, ← zpow_natCast, ← zpow_add₀ two_ne_zero, ← isPower]
      simp
    have most : value / lastBit value ≤ ((2 ^ power : ℤ) : ℚ) := by
      rw [div_le_iff₀ (lastBit_pos value)]
      push_cast
      rwa [bits]
    have rounded : (roundEven (value / lastBit value) : ℚ) ≤ 2 ^ power := by
      exact_mod_cast roundEven_le most
    calc
      roundEven (value / lastBit value) * lastBit value ≤ 2 ^ power * lastBit value :=
        mul_le_mul_of_nonneg_right rounded (lastBit_pos value).le
      _ = 1 := bits

theorem roundTo_nonneg (decimals : ℕ) {value : ℚ} (positive : 0 ≤ value) : 0 ≤ roundTo decimals value := by
  have shifted : 0 ≤ roundEven (value * 10 ^ decimals) := roundEven_nonneg (by positivity)
  exact nearest_nonneg (div_nonneg (Int.cast_nonneg shifted) (by positivity))

theorem roundTo_le_one (decimals : ℕ) {value : ℚ} (positive : 0 ≤ value) (below : value ≤ 1) :
    roundTo decimals value ≤ 1 := by
  have scale : (0 : ℚ) < 10 ^ decimals := by positivity
  have shifted : 0 ≤ roundEven (value * 10 ^ decimals) := roundEven_nonneg (by positivity)
  have most : value * 10 ^ decimals ≤ ((10 ^ decimals : ℤ) : ℚ) := by
    push_cast
    exact mul_le_of_le_one_left scale.le below
  refine nearest_le_one (div_nonneg (Int.cast_nonneg shifted) scale.le) ?_
  rw [div_le_one scale]
  exact_mod_cast roundEven_le most

end Double
end DomainLens
