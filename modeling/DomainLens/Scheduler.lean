import Mathlib

/-!
# When a monitor runs next

A monitor runs every so many minutes, or at slots counted from a time of day in a zone.  Slots are
counted in elapsed time and then placed on the wall clock, and the two come apart where the offset
of the zone changes.  The file embeds the computation and settles for which arguments the next run
lies ahead, by one interval at most.
-/

namespace DomainLens
namespace Scheduler

/-! ## Instants and wall clocks

Instants and spans are in microseconds.  The reading of a wall clock is the instant that shows it
where the offset is zero. -/

def minute : Int := 60 * 1000000

def dayLength : Int := 1440 * minute

/-- A change of the offset: the instant and the offset from then on. -/
structure Transition where
  instant : Int
  after : Int
deriving DecidableEq, Repr

/-- A time zone: the offset before its transitions, and these in order. -/
structure Zone where
  before : Int
  transitions : List Transition
  ordered : (transitions.map Transition.instant).Pairwise (· < ·)

namespace Zone

def offsetFrom (before : Int) : List Transition → Int → Int
  | [], _ => before
  | change :: changes, now =>
      if now < change.instant then before else offsetFrom change.after changes now

/-- Offset of a reading with `fold=0`: where the clock shows it twice the earlier one, where it
skips it the one before the gap. -/
def wallOffsetFrom (before : Int) : List Transition → Int → Int
  | [], _ => before
  | change :: changes, wall =>
      if wall < change.instant + max before change.after then before
      else wallOffsetFrom change.after changes wall

def offsetAt (zone : Zone) (now : Int) : Int := offsetFrom zone.before zone.transitions now

/-- `utcoffset` of an aware datetime. -/
def utcoffset (zone : Zone) (wall : Int) : Int :=
  wallOffsetFrom zone.before zone.transitions wall

/-- `astimezone` into the zone. -/
def toLocal (zone : Zone) (now : Int) : Int := now + zone.offsetAt now

/-- `astimezone` out of the zone. -/
def toUtc (zone : Zone) (wall : Int) : Int := wall - zone.utcoffset wall

/-- `date` in the zone, as a number of days. -/
def date (zone : Zone) (now : Int) : Int := zone.toLocal now / dayLength

end Zone

structure HourMinute where
  hour : Fin 24
  minute : Fin 60
deriving DecidableEq, Repr

/-- The reading of a time of day on a date. -/
def reading (day : Int) (time : HourMinute) : Int :=
  day * dayLength + (time.hour * 60 + time.minute : Int) * minute

/-- Length of the interval in minutes; a missing one, or zero, is a day. -/
def interval (scheduleMinutes : Option Int) : Int :=
  max ((scheduleMinutes.filter (· ≠ 0)).getD 1440) 1

/-- The reading of the next slot of an interval below a day. -/
def nextSlot (zone : Zone) (anchor : Int) (step now : Int) : Int :=
  anchor + ((now - zone.toUtc anchor) / step + 1) * step

/-- The earliest next run for an interval of a day or more. -/
def earliestRun (minutes : Int) (first : Bool) (now : Int) : Int :=
  now + (if first then 1 else max (minutes - 1440) 0 + 1) * minute

/-- When a monitor runs next.  A time that does not parse, or a zone not found, is missing. -/
def nextRun (scheduleMinutes : Option Int) (scanTime : Option HourMinute) (scanTz : Option Zone)
    (now : Int) (first : Bool) : Int :=
  let minutes := interval scheduleMinutes
  match scanTime, scanTz with
  | some time, some zone =>
      if minutes < 1440 then
        zone.toUtc (nextSlot zone (reading (zone.date now) time) (minutes * minute) now)
      else
        let earliest := earliestRun minutes first now
        let day := zone.date earliest
        let candidate := zone.toUtc (reading day time)
        if candidate < earliest then zone.toUtc (reading (day + 1) time) else candidate
  | _, _ => now + minutes * minute

/-! ## The next run lies ahead -/

/-- The next run is later than now, and by one interval at most where that is below a day. -/
structure Ahead (scheduleMinutes : Option Int) (scanTime : Option HourMinute)
    (scanTz : Option Zone) (now : Int) (first : Bool) : Prop where
  later : now < nextRun scheduleMinutes scanTime scanTz now first
  within : interval scheduleMinutes < 1440 →
    nextRun scheduleMinutes scanTime scanTz now first ≤ now + interval scheduleMinutes * minute

/-- From the anchor to the next slot the offset rises by less than what is left of the interval,
and falls by no more than what has passed of it. -/
def SlotFits (zone : Zone) (anchor : Int) (step now : Int) : Prop :=
  let passed := (now - zone.toUtc anchor) % step
  let rise := zone.utcoffset (nextSlot zone anchor step now) - zone.utcoffset anchor
  0 ≤ rise + passed ∧ rise + passed < step

/-- The slot of the day is not over, or from the earliest run to the slot of the next day the
offset rises by less than the clock has to go. -/
def DayFits (zone : Zone) (time : HourMinute) (earliest now : Int) : Prop :=
  let slot := reading (zone.date earliest + 1) time
  earliest ≤ zone.toUtc (reading (zone.date earliest) time) ∨
    zone.utcoffset slot - zone.offsetAt earliest <
      slot - zone.toLocal earliest + (earliest - now)

/-- The offset changes of the zone fit the slots. -/
def OffsetsFit (scheduleMinutes : Option Int) (scanTime : Option HourMinute)
    (scanTz : Option Zone) (now : Int) (first : Bool) : Prop :=
  match scanTime, scanTz with
  | some time, some zone =>
      if interval scheduleMinutes < 1440 then
        SlotFits zone (reading (zone.date now) time) (interval scheduleMinutes * minute) now
      else DayFits zone time (earliestRun (interval scheduleMinutes) first now) now
  | _, _ => True

theorem one_le_interval (scheduleMinutes : Option Int) : 1 ≤ interval scheduleMinutes :=
  Int.le_max_right _ _

/-- The next slot is what is left of the interval away, less the rise of the offset. -/
theorem toUtc_nextSlot (zone : Zone) (anchor : Int) (step now : Int) :
    zone.toUtc (nextSlot zone anchor step now) =
      now + (step - (now - zone.toUtc anchor) % step) -
        (zone.utcoffset (nextSlot zone anchor step now) - zone.utcoffset anchor) := by
  have counted : ((now - zone.toUtc anchor) / step + 1) * step =
      now - zone.toUtc anchor - (now - zone.toUtc anchor) % step + step := by
    have split := Int.ediv_mul_add_emod (now - zone.toUtc anchor) step
    rw [Int.add_mul, Int.one_mul]
    omega
  have placed : nextSlot zone anchor step now =
      now + zone.utcoffset anchor - (now - zone.toUtc anchor) % step + step := by
    rw [nextSlot, counted]
    simp only [Zone.toUtc]
    omega
  rw [Zone.toUtc]
  omega

theorem toUtc_sub (zone : Zone) (slot : Int) (earliest : Int) :
    zone.toUtc slot - earliest =
      slot - zone.toLocal earliest - (zone.utcoffset slot - zone.offsetAt earliest) := by
  simp only [Zone.toUtc, Zone.toLocal]
  omega

private theorem one_le_step (scheduleMinutes : Option Int) :
    0 < interval scheduleMinutes * minute :=
  Int.mul_pos (one_le_interval scheduleMinutes) (by decide)

private theorem slot_ahead_iff (zone : Zone) (anchor now : Int) {step : Int} :
    (now < zone.toUtc (nextSlot zone anchor step now) ∧
        zone.toUtc (nextSlot zone anchor step now) ≤ now + step) ↔
      SlotFits zone anchor step now := by
  have placed := toUtc_nextSlot zone anchor step now
  simp only [SlotFits]
  omega

private theorem day_ahead_iff (zone : Zone) (time : HourMinute) {earliest now : Int}
    (later : now < earliest) :
    (now < if zone.toUtc (reading (zone.date earliest) time) < earliest then
        zone.toUtc (reading (zone.date earliest + 1) time)
      else zone.toUtc (reading (zone.date earliest) time)) ↔ DayFits zone time earliest now := by
  have distance := toUtc_sub zone (reading (zone.date earliest + 1) time) earliest
  simp only [DayFits]
  split
  · omega
  · omega

/-- The next run lies ahead exactly when the offset changes fit the slots. -/
theorem ahead_iff_offsetsFit (scheduleMinutes : Option Int) (scanTime : Option HourMinute)
    (scanTz : Option Zone) (now : Int) (first : Bool) :
    Ahead scheduleMinutes scanTime scanTz now first ↔
      OffsetsFit scheduleMinutes scanTime scanTz now first := by
  have positive := one_le_step scheduleMinutes
  rw [show Ahead scheduleMinutes scanTime scanTz now first ↔
      now < nextRun scheduleMinutes scanTime scanTz now first ∧
        (interval scheduleMinutes < 1440 → nextRun scheduleMinutes scanTime scanTz now first ≤
          now + interval scheduleMinutes * minute) from
    ⟨fun ahead => ⟨ahead.later, ahead.within⟩, fun ⟨later, within⟩ => ⟨later, within⟩⟩]
  cases scanTime with
  | none =>
      simp only [nextRun, OffsetsFit]
      exact iff_of_true ⟨by omega, fun _ => by omega⟩ trivial
  | some time =>
      cases scanTz with
      | none =>
          simp only [nextRun, OffsetsFit]
          exact iff_of_true ⟨by omega, fun _ => by omega⟩ trivial
      | some zone =>
          by_cases short : interval scheduleMinutes < 1440
          · simp only [nextRun, OffsetsFit, short, true_imp_iff]
            exact slot_ahead_iff zone _ now
          · have later : now < earliestRun (interval scheduleMinutes) first now := by
              have ahead : 0 < (if first then 1 else max (interval scheduleMinutes - 1440) 0 + 1) *
                  minute := by
                refine Int.mul_pos ?_ (by decide)
                split <;> omega
              rw [earliestRun]
              omega
            simp only [nextRun, OffsetsFit, short, false_imp_iff, and_true]
            exact day_ahead_iff zone time later

/-! ## Stretches without a change -/

/-- The readings from which on the offset of a transition is taken. -/
def thresholds : Int → List Transition → List Int
  | _, [] => []
  | before, change :: changes =>
      (change.instant + max before change.after) :: thresholds change.after changes

/-- Amsterdam around the last Sunday of March 2026: summer time begins at 01:00 UTC. -/
def amsterdam : Zone where
  before := 60 * minute
  transitions := [⟨1774746000 * 1000000, 120 * minute⟩]
  ordered := by decide

/-- Every hour from midnight on, at noon UTC of that Sunday: the slot is the one that is now. -/
theorem amsterdam_not_ahead :
    ¬ Ahead (some 60) (some ⟨0, 0⟩) (some amsterdam) (1774785600 * 1000000) false := by
  rintro ⟨later, _⟩
  exact absurd later (by decide)

end Scheduler
end DomainLens
