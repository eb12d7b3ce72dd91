import DomainLens.Library.Decimal
import DomainLens.Python.Text
import DomainLens.Scheduler

/-!
# Times of a plan

The scans of a plan start one after another, a number of minutes apart.  A monitor that is added later gets
the first time that no monitor has, of those that are tried, and there is one whenever fewer times are
taken than one day of the plan has.
-/

namespace DomainLens
namespace Scheduler

open Python Decimal

/-! ## The times -/

/-- `total` of a scan: the minute of the day. -/
def planMinute (start : HourMinute) (spacing : ℤ) (index : ℕ) : ℤ :=
  (start.hour * 60 + start.minute + index * spacing) % 1440

/-- A minute of the day as `HH:MM`. -/
def clockText (total : ℤ) : Text :=
  padded 2 (total / 60).toNat ++ ':' :: padded 2 (total % 60).toNat

/-- `plan_slot`. -/
def planSlot (start : HourMinute) (spacing : ℤ) (index : ℕ) : Text :=
  clockText (planMinute start spacing index)

def tries (spacing : ℤ) : ℕ := (max (1440 / max spacing 1) 1).toNat

/-- `free_plan_slot`. -/
def freePlanSlot (start : HourMinute) (spacing : ℤ) (taken : List Text) : Text :=
  match (List.range (tries spacing)).find? fun index => planSlot start spacing index ∉ taken with
  | some index => planSlot start spacing index
  | none => planSlot start spacing taken.toFinset.card

/-! ## One day of the plan -/

/-- The scans that start less than a day after the first one. -/
def lap (spacing : ℤ) : Finset ℕ := {index ∈ Finset.range 1440 | index * spacing.natAbs < 1440}

def grid (start : HourMinute) (spacing : ℤ) : Finset Text := (lap spacing).image (planSlot start spacing)

variable {start : HourMinute} {spacing : ℤ}

theorem mem_lap {index : ℕ} : index ∈ lap spacing ↔ index < 1440 ∧ index * spacing.natAbs < 1440 := by
  rw [lap, Finset.mem_filter, Finset.mem_range]

theorem mem_lap_of_le {index earlier : ℕ} (inside : index ∈ lap spacing) (before : earlier ≤ index) :
    earlier ∈ lap spacing := by
  rw [mem_lap] at inside ⊢
  have less : earlier * spacing.natAbs ≤ index * spacing.natAbs := Nat.mul_le_mul_right _ before
  exact ⟨by omega, by omega⟩

theorem mem_grid {index : ℕ} (inside : index ∈ lap spacing) :
    planSlot start spacing index ∈ grid start spacing := Finset.mem_image_of_mem _ inside

theorem planMinute_bounds (start : HourMinute) (spacing : ℤ) (index : ℕ) :
    0 ≤ planMinute start spacing index ∧ planMinute start spacing index < 1440 :=
  ⟨Int.emod_nonneg _ (by decide), Int.emod_lt_of_pos _ (by decide)⟩

theorem clockText_inj {left right : ℤ} (leftBounds : 0 ≤ left ∧ left < 1440)
    (rightBounds : 0 ≤ right ∧ right < 1440) (same : clockText left = clockText right) :
    left = right := by
  obtain ⟨hours, minutes⟩ := List.append_inj same (by simp)
  have hour := (padded_inj (by omega) (by omega)).mp hours
  have minute := (padded_inj (by omega) (by omega)).mp (List.tail_eq_of_cons_eq minutes)
  omega

theorem planSlot_injOn (apart : spacing ≠ 0) : Set.InjOn (planSlot start spacing) (lap spacing) := by
  intro first isFirst second isSecond same
  rw [Finset.mem_coe, mem_lap] at isFirst isSecond
  have minutes := clockText_inj (planMinute_bounds start spacing first)
    (planMinute_bounds start spacing second) same
  have shift : planMinute start spacing first % 1440 = planMinute start spacing second % 1440 := by
    rw [minutes]
  rw [planMinute, planMinute, Int.emod_emod, Int.emod_emod, Int.emod_eq_emod_iff_emod_sub_eq_zero,
    add_sub_add_left_eq_sub, ← sub_mul] at shift
  have divides := Int.natAbs_dvd_natAbs.mpr (Int.dvd_of_emod_eq_zero shift)
  rw [Int.natAbs_mul] at divides
  have most : (first - second : ℤ).natAbs ≤ max first second := by omega
  have less : (first - second : ℤ).natAbs * spacing.natAbs < 1440 := by
    refine (Nat.mul_le_mul_right _ most).trans_lt ?_
    rcases max_choice first second with same | same <;> rw [same]
    · exact isFirst.2
    · exact isSecond.2
  rcases Nat.mul_eq_zero.mp (Nat.eq_zero_of_dvd_of_lt divides less) with none | none <;> omega

/-! ## What is tried -/

theorem tries_of_pos (positive : 0 < spacing) : tries spacing = max (1440 / spacing.natAbs) 1 := by
  obtain ⟨size, rfl⟩ := Int.eq_ofNat_of_zero_le positive.le
  rw [tries, max_eq_left (by omega : 1 ≤ (size : ℤ)), Int.natAbs_natCast]
  norm_cast

theorem tries_of_nonpos (negative : spacing ≤ 0) : tries spacing = 1440 := by
  rw [tries, max_eq_right (by omega : spacing ≤ 1)]
  rfl

theorem le_tries {index : ℕ} (inside : index ∈ lap spacing) : index ≤ tries spacing := by
  rw [mem_lap] at inside
  rcases lt_or_ge 0 spacing with positive | negative
  · rw [tries_of_pos positive]
    refine le_max_of_le_left ((Nat.le_div_iff_mul_le ?_).mpr inside.2.le)
    omega
  · rw [tries_of_nonpos negative]
    exact inside.1.le

theorem freePlanSlot_cases (start : HourMinute) (spacing : ℤ) (taken : List Text) :
    (∃ index < tries spacing, planSlot start spacing index ∉ taken ∧
      (∀ earlier < index, planSlot start spacing earlier ∈ taken) ∧
      freePlanSlot start spacing taken = planSlot start spacing index) ∨
    (∀ index < tries spacing, planSlot start spacing index ∈ taken) ∧
      freePlanSlot start spacing taken = planSlot start spacing taken.toFinset.card := by
  rw [freePlanSlot]
  cases found : (List.range (tries spacing)).find? fun index => planSlot start spacing index ∉ taken with
  | some index =>
      obtain ⟨free, tried, first⟩ := List.find?_range_eq_some.mp found
      rw [decide_eq_true_eq] at free
      refine .inl ⟨index, List.mem_range.mp tried, free, fun earlier before => ?_, rfl⟩
      simpa using first earlier before
  | none =>
      refine .inr ⟨fun index tried => ?_, rfl⟩
      simpa using List.find?_eq_none.mp found index (List.mem_range.mpr tried)

/-- Where one of the times that are tried is free, one of them is returned that is. -/
theorem freePlanSlot_of_tried {taken : List Text}
    (free : ∃ index < tries spacing, planSlot start spacing index ∉ taken) :
    freePlanSlot start spacing taken ∉ taken ∧
      ∃ index < tries spacing, freePlanSlot start spacing taken = planSlot start spacing index := by
  rcases freePlanSlot_cases start spacing taken with ⟨index, tried, isFree, -, same⟩ | ⟨all, -⟩
  · exact ⟨same ▸ isFree, index, tried, same⟩
  · obtain ⟨index, tried, isFree⟩ := free
    exact absurd (all index tried) isFree

private theorem tries_le_card {taken : List Text}
    (all : ∀ index < tries spacing, planSlot start spacing index ∈ taken)
    (short : ∀ index < tries spacing, index ∈ lap spacing) (apart : spacing ≠ 0) :
    tries spacing ≤ taken.toFinset.card := by
  have inside : (Finset.range (tries spacing)).image (planSlot start spacing) ⊆ taken.toFinset := by
    intro slot member
    obtain ⟨index, tried, rfl⟩ := Finset.mem_image.mp member
    exact List.mem_toFinset.mpr (all index (Finset.mem_range.mp tried))
  have injective : Set.InjOn (planSlot start spacing) (Finset.range (tries spacing)) :=
    (planSlot_injOn apart).mono fun index tried => short index (Finset.mem_range.mp tried)
  have counted := Finset.card_le_card inside
  rwa [Finset.card_image_of_injOn injective, Finset.card_range] at counted

/-- Whenever fewer times are taken than one day of the plan has, a time of that day is returned that is
free; and so is one of the times that are tried, where one of them is free. -/
theorem freePlanSlot_free (start : HourMinute) (spacing : ℤ) (taken : List Text) :
    (taken.toFinset.card < (grid start spacing).card →
      freePlanSlot start spacing taken ∈ grid start spacing ∧ freePlanSlot start spacing taken ∉ taken) ∧
    ((∃ index < tries spacing, planSlot start spacing index ∉ taken) →
      freePlanSlot start spacing taken ∉ taken ∧
        ∃ index < tries spacing, freePlanSlot start spacing taken = planSlot start spacing index) := by
  refine ⟨fun fewer => ?_, freePlanSlot_of_tried⟩
  obtain ⟨slot, onGrid, isFree⟩ := Finset.exists_mem_notMem_of_card_lt_card fewer
  obtain ⟨index, inside, rfl⟩ := Finset.mem_image.mp onGrid
  rw [List.mem_toFinset] at isFree
  rcases freePlanSlot_cases start spacing taken with ⟨found, -, free, first, same⟩ | ⟨all, same⟩
  · have before : found ≤ index := by
      by_contra later
      exact isFree (first index (not_le.mp later))
    rw [same]
    exact ⟨mem_grid (mem_lap_of_le inside before), free⟩
  · -- The last time of the day is left, and as many are taken as come before it.
    have last : index = tries spacing := by
      refine le_antisymm (le_tries inside) ?_
      by_contra tried
      exact isFree (all index (not_le.mp tried))
    have apart : spacing ≠ 0 := by
      rintro rfl
      have bounds := mem_lap.mp inside
      rw [last] at bounds
      exact absurd bounds.1 (by decide)
    have least : tries spacing ≤ taken.toFinset.card :=
      tries_le_card all (fun other tried => mem_lap_of_le inside (last ▸ tried.le)) apart
    have most : (grid start spacing).card ≤ tries spacing + 1 := by
      have short : lap spacing ⊆ Finset.range (tries spacing + 1) := fun other isIn =>
        Finset.mem_range.mpr (Nat.lt_succ_of_le (le_tries isIn))
      have counted := Finset.card_le_card short
      rw [Finset.card_range] at counted
      exact Finset.card_image_le.trans counted
    have counted : taken.toFinset.card = index := by omega
    rw [same, counted]
    exact ⟨mem_grid inside, isFree⟩

/-- With two times a day and one of them taken, the other one is returned. -/
theorem other_half_free :
    freePlanSlot ⟨10, 0⟩ 720 ["10:00".toList] ∈ grid ⟨10, 0⟩ 720 ∧
      freePlanSlot ⟨10, 0⟩ 720 ["10:00".toList] ∉ ["10:00".toList] :=
  (freePlanSlot_free ⟨10, 0⟩ 720 ["10:00".toList]).1 (by decide +kernel)

end Scheduler
end DomainLens
