/-! Dates of the proleptic Gregorian calendar.

A date is a year, a month and a day of the month; days are counted from
1970-01-01. The count works in years that begin on 1 March, so that the leap
day is the last day of its year.
-/

set_option autoImplicit false

namespace ObsCatalog.Calendar

structure CivilDate where
  year : Int
  month : Nat
  day : Nat
  deriving DecidableEq, Repr

def isLeapYear (year : Int) : Bool :=
  year % 4 = 0 ∧ (year % 100 ≠ 0 ∨ year % 400 = 0)

def daysInMonth (year : Int) (month : Nat) : Nat :=
  if month = 2 then
    if isLeapYear year then 29 else 28
  else if month = 4 ∨ month = 6 ∨ month = 9 ∨ month = 11 then 30
  else 31

namespace CivilDate

def Valid (d : CivilDate) : Prop :=
  1 ≤ d.month ∧ d.month ≤ 12 ∧ 1 ≤ d.day ∧ d.day ≤ daysInMonth d.year d.month

instance (d : CivilDate) : Decidable d.Valid := by
  unfold Valid; infer_instance

/-- Days from 0000-03-01 to the first day of a year that begins in March. -/
def daysBeforeMarchYear (year : Int) : Int :=
  365 * year + year / 4 - year / 100 + year / 400

/-- Days from 1 March to the first of the month that comes `offset` months later. -/
def daysBeforeMarchMonth (offset : Int) : Int := (153 * offset + 2) / 5

/-- The day 1970-01-01, counted from 0000-03-01. -/
def epochDay : Int := 719468

def dayNumber (d : CivilDate) : Int :=
  let marchYear := if d.month ≤ 2 then d.year - 1 else d.year
  let offset : Int := if d.month ≤ 2 then d.month + 9 else d.month - 3
  daysBeforeMarchYear marchYear + daysBeforeMarchMonth offset + d.day - 1 - epochDay

/-- The year, among the 400 of a cycle, that holds a day of the cycle. -/
def yearOfCycle (dayOfCycle : Int) : Int :=
  (dayOfCycle - dayOfCycle / 1460 + dayOfCycle / 36524 - dayOfCycle / 146096) / 365

/-- How many months after March the month of a day of the year comes. -/
def monthOffset (dayOfYear : Int) : Int := (5 * dayOfYear + 2) / 153

def ofDayNumber (days : Int) : CivilDate :=
  let shifted := days + epochDay
  let cycle := shifted / 146097
  let dayOfCycle := shifted % 146097
  let yearInCycle := yearOfCycle dayOfCycle
  let dayOfYear := dayOfCycle - daysBeforeMarchYear yearInCycle
  let offset := monthOffset dayOfYear
  let day := (dayOfYear - daysBeforeMarchMonth offset + 1).toNat
  let marchYear := yearInCycle + 400 * cycle
  if offset < 10 then ⟨marchYear, (offset + 3).toNat, day⟩
  else ⟨marchYear + 1, (offset - 9).toNat, day⟩

example : dayNumber ⟨1970, 1, 1⟩ = 0 := by decide

example : ofDayNumber 0 = ⟨1970, 1, 1⟩ := by decide

example : ofDayNumber (-1) = ⟨1969, 12, 31⟩ := by decide

example : dayNumber ⟨2000, 2, 29⟩ = 11016 := by decide

example : ofDayNumber 11016 = ⟨2000, 2, 29⟩ := by decide

end CivilDate

end ObsCatalog.Calendar
