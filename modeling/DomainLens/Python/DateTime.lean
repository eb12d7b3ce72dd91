import DomainLens.Library.Decimal
import DomainLens.Python.Date

/-!
# Moments in UTC

A `datetime` in UTC, with `isoformat` and the sums the program makes.  Moments are stored as text and
compared as text; the file shows that this is the order of time, though `isoformat` leaves out
microseconds that are zero.
-/

namespace DomainLens
namespace Python

open Decimal Numeral

/-- A day of the proleptic Gregorian calendar. -/
structure Day where
  year : Nat
  month : Nat
  day : Nat
  isYear : 1 ≤ year ∧ year ≤ 9999
  isMonth : 1 ≤ month ∧ month ≤ 12
  isDay : 1 ≤ day ∧ day ≤ daysInMonth year month
deriving DecidableEq

/-- A `datetime` in UTC. -/
structure DateTime where
  date : Day
  hour : Fin 24
  minute : Fin 60
  second : Fin 60
  microsecond : Fin 1000000
deriving DecidableEq

theorem daysInMonth_le (year month : Nat) : daysInMonth year month ≤ 31 := by
  unfold daysInMonth
  split
  · split <;> decide
  · split <;> decide

theorem one_le_daysInMonth (year month : Nat) : 1 ≤ daysInMonth year month := by
  unfold daysInMonth
  split
  · split <;> decide
  · split <;> decide

namespace Day

/-- The day after; `none` is the `OverflowError`. -/
def next (date : Day) : Option Day :=
  if within : date.day < daysInMonth date.year date.month then
    some { date with day := date.day + 1, isDay := ⟨Nat.le_add_left 1 _, within⟩ }
  else if earlier : date.month < 12 then
    some
      { date with
        month := date.month + 1
        day := 1
        isMonth := ⟨Nat.le_add_left 1 _, earlier⟩
        isDay := ⟨le_rfl, one_le_daysInMonth _ _⟩ }
  else if later : date.year < 9999 then
    some
      { year := date.year + 1
        month := 1
        day := 1
        isYear := ⟨Nat.le_add_left 1 _, later⟩
        isMonth := ⟨le_rfl, by decide⟩
        isDay := ⟨le_rfl, one_le_daysInMonth _ _⟩ }
  else none

/-- The day before; `none` is the `OverflowError`. -/
def previous (date : Day) : Option Day :=
  if within : 1 < date.day then
    some
      { date with
        day := date.day - 1
        isDay := ⟨Nat.le_sub_of_add_le within, (Nat.sub_le _ _).trans date.isDay.2⟩ }
  else if later : 1 < date.month then
    some
      { date with
        month := date.month - 1
        day := daysInMonth date.year (date.month - 1)
        isMonth := ⟨Nat.le_sub_of_add_le later, (Nat.sub_le _ _).trans date.isMonth.2⟩
        isDay := ⟨one_le_daysInMonth _ _, le_rfl⟩ }
  else if earlier : 1 < date.year then
    some
      { year := date.year - 1
        month := 12
        day := daysInMonth (date.year - 1) 12
        isYear := ⟨Nat.le_sub_of_add_le earlier, (Nat.sub_le _ _).trans date.isYear.2⟩
        isMonth := ⟨by decide, le_rfl⟩
        isDay := ⟨one_le_daysInMonth _ _, le_rfl⟩ }
  else none

/-- `date + timedelta(days)`. -/
def plusDays (date : Day) : Nat → Option Day
  | 0 => some date
  | days + 1 => date.next.bind fun next => plusDays next days

end Day

namespace DateTime

def fields (moment : DateTime) : List Nat :=
  [moment.date.year, moment.date.month, moment.date.day, moment.hour, moment.minute, moment.second,
    moment.microsecond]

/-- The order of time. -/
instance : LT DateTime := ⟨fun earlier later => earlier.fields < later.fields⟩

instance : LE DateTime := ⟨fun earlier later => ¬ later < earlier⟩

instance (earlier later : DateTime) : Decidable (earlier < later) :=
  inferInstanceAs (Decidable (earlier.fields < later.fields))

instance (earlier later : DateTime) : Decidable (earlier ≤ later) :=
  inferInstanceAs (Decidable (¬ later < earlier))

protected theorem le_refl (moment : DateTime) : moment ≤ moment := List.le_refl moment.fields

protected theorem le_trans {first second third : DateTime} (before : first ≤ second)
    (after : second ≤ third) : first ≤ third :=
  @List.le_trans Nat _ _ _ _ first.fields second.fields third.fields before after

protected theorem not_le {first second : DateTime} : ¬ first ≤ second ↔ second < first :=
  not_not

/-- `moment + timedelta(days)`. -/
def plusDays (moment : DateTime) (days : Nat) : Option DateTime :=
  (moment.date.plusDays days).map fun date => { moment with date }

/-- `moment - timedelta(minutes=1)`. -/
def minuteBefore (moment : DateTime) : Option DateTime :=
  if 0 < moment.minute.val then
    some { moment with minute := ⟨moment.minute - 1, (Nat.sub_le _ _).trans_lt moment.minute.isLt⟩ }
  else if 0 < moment.hour.val then
    some
      { moment with
        hour := ⟨moment.hour - 1, (Nat.sub_le _ _).trans_lt moment.hour.isLt⟩
        minute := 59 }
  else moment.date.previous.map fun date => { moment with date, hour := 23, minute := 59 }

/-- The microseconds `isoformat` writes. -/
def fraction (microsecond : Nat) : Text :=
  if microsecond = 0 then [] else '.' :: padded 6 microsecond

/-- `moment.isoformat()`. -/
def isoformat (moment : DateTime) : Text :=
  padded 4 moment.date.year ++ '-' :: (padded 2 moment.date.month ++
    '-' :: (padded 2 moment.date.day ++ 'T' :: (padded 2 moment.hour ++
      ':' :: (padded 2 moment.minute ++ ':' :: (padded 2 moment.second ++
        (fraction moment.microsecond ++ "+00:00".toList))))))

/-! ## Texts of moments -/

/-- The fraction comes before the zone, whose sign comes before a full stop. -/
theorem fraction_lt_iff {left right : Nat} (leftSmall : left < 1000000)
    (rightSmall : right < 1000000) :
    fraction left ++ "+00:00".toList < fraction right ++ "+00:00".toList ↔ left < right := by
  unfold fraction
  split
  · rename_i isZero
    subst isZero
    split
    · rename_i isZero
      subst isZero
      decide
    · rename_i nonzero
      exact iff_of_true (List.Lex.rel (by decide)) (Nat.pos_of_ne_zero nonzero)
  · rename_i nonzero
    split
    · rename_i isZero
      subst isZero
      refine iff_of_false ?_ (Nat.not_lt_zero left)
      change ¬ ('.' :: (padded 6 left ++ "+00:00".toList) < '+' :: "00:00".toList)
      rw [List.cons_lt_cons_iff, not_or]
      exact ⟨by decide, fun same => absurd same.1 (by decide)⟩
    · rw [List.cons_append, List.cons_append, List.cons_lt_cons_iff,
        append_lt_append_iff (by simp), padded_lt_padded_iff leftSmall rightSmall]
      simp

private theorem two_digits_lt_iff {left right : Nat} (leftSmall : left < 100)
    (rightSmall : right < 100) {separator : Char} {leftRest rightRest : Text} :
    padded 2 left ++ separator :: leftRest < padded 2 right ++ separator :: rightRest ↔
      left < right ∨ left = right ∧ leftRest < rightRest := by
  rw [append_lt_append_iff (by simp), padded_lt_padded_iff leftSmall rightSmall,
    padded_inj leftSmall rightSmall, List.cons_lt_cons_iff]
  simp

theorem isoformat_lt_iff {left right : DateTime} :
    left.isoformat < right.isoformat ↔ left < right := by
  have months (date : Day) : date.month < 100 := date.isMonth.2.trans_lt (by decide)
  have days (date : Day) : date.day < 100 :=
    (date.isDay.2.trans (daysInMonth_le _ _)).trans_lt (by decide)
  have hours (hour : Fin 24) : hour.val < 100 := hour.isLt.trans (by decide)
  have sixtieths (value : Fin 60) : value.val < 100 := value.isLt.trans (by decide)
  have years (date : Day) : date.year < 10 ^ 4 := date.isYear.2.trans_lt (by decide)
  calc left.isoformat < right.isoformat
      ↔ left.fields < right.fields := by
        rw [isoformat, isoformat, append_lt_append_iff (by simp),
          padded_lt_padded_iff (years _) (years _), padded_inj (years _) (years _),
          List.cons_lt_cons_iff, two_digits_lt_iff (months _) (months _),
          two_digits_lt_iff (days _) (days _), two_digits_lt_iff (hours _) (hours _),
          two_digits_lt_iff (sixtieths _) (sixtieths _), append_lt_append_iff (by simp),
          padded_lt_padded_iff (sixtieths _) (sixtieths _),
          padded_inj (sixtieths _) (sixtieths _),
          fraction_lt_iff left.microsecond.isLt right.microsecond.isLt]
        simp [fields, List.cons_lt_cons_iff]
    _ ↔ left < right := .rfl

end DateTime
end Python
end DomainLens
