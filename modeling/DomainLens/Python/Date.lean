import DomainLens.Python.Text

/-!
# Dates

`date.fromisoformat` reads the calendar date and the ISO week date, with and without separators.
A date is its ordinal in the proleptic Gregorian calendar, 1 January of year 1 being day 1.
-/

namespace DomainLens
namespace Python

/-- `calendar.isleap`. -/
def isLeap (year : Nat) : Bool :=
  year % 4 == 0 && (year % 100 != 0 || year % 400 == 0)

def daysInMonth (year month : Nat) : Nat :=
  if month = 2 then (if isLeap year then 29 else 28)
  else if month ∈ [4, 6, 9, 11] then 30 else 31

def daysBeforeYear (year : Nat) : Nat :=
  (year - 1) * 365 + (year - 1) / 4 - (year - 1) / 100 + (year - 1) / 400

/-- `date.toordinal`. -/
def toOrdinal (year month day : Nat) : Nat :=
  daysBeforeYear year + ((List.range (month - 1)).map fun before =>
    daysInMonth year (before + 1)).sum + day

/-- The weekday of an ordinal, Monday being 0. -/
def weekday (ordinal : Nat) : Nat := (ordinal + 6) % 7

/-- The Monday of the first ISO week of a year. -/
def isoWeekOneMonday (year : Nat) : Nat :=
  let first := toOrdinal year 1 1
  if weekday first > 3 then first + 7 - weekday first else first - weekday first

def maxOrdinal : Nat := 3652059

def asciiNumber (digits : Text) : Option Nat :=
  if digits.all Char.isDigit then some (intOf digits) else none

/-- The date of a year, a month and a day. -/
def calendarDate (year month day : Text) : Option Nat := do
  let year ← asciiNumber year
  let month ← asciiNumber month
  let day ← asciiNumber day
  if 1 ≤ year ∧ 1 ≤ month ∧ month ≤ 12 ∧ 1 ≤ day ∧ day ≤ daysInMonth year month then
    some (toOrdinal year month day)
  else none

/-- The date of an ISO year, a week and a day. -/
def isoWeekDate (year week day : Text) : Option Nat := do
  let year ← asciiNumber year
  let week ← asciiNumber week
  let day ← asciiNumber day
  let newYear := weekday (toOrdinal year 1 1)
  let weeks := if newYear = 3 ∨ newYear = 2 ∧ isLeap year then 53 else 52
  let ordinal := isoWeekOneMonday year + 7 * (week - 1) + (day - 1)
  if 1 ≤ year ∧ 1 ≤ week ∧ week ≤ weeks ∧ 1 ≤ day ∧ day ≤ 7 ∧ ordinal ≤ maxOrdinal then
    some ordinal
  else none

/-- `date.fromisoformat`, `none` being the `ValueError`. -/
def fromIsoFormat : Text → Option Nat
  | [a, b, c, d, '-', 'W', e, f, '-', g] => isoWeekDate [a, b, c, d] [e, f] [g]
  | [a, b, c, d, '-', e, f, '-', g, h] => calendarDate [a, b, c, d] [e, f] [g, h]
  | [a, b, c, d, '-', 'W', e, f] => isoWeekDate [a, b, c, d] [e, f] ['1']
  | [a, b, c, d, 'W', e, f, g] => isoWeekDate [a, b, c, d] [e, f] [g]
  | [a, b, c, d, e, f, g, h] => calendarDate [a, b, c, d] [e, f] [g, h]
  | [a, b, c, d, 'W', e, f] => isoWeekDate [a, b, c, d] [e, f] ['1']
  | _ => none

end Python
end DomainLens
