import ObsCatalog.Calendar.Instant
import Mathlib.Tactic.ByContra
import Mathlib.Tactic.SplitIfs

/-! Days and dates.

Every day has a date of the calendar, and that date counts back to the day. A day is
found through the year that begins in March and the month of that year; both are
looked up by a division that is exact over one cycle of 400 years.
-/

set_option autoImplicit false

namespace ObsCatalog.Calendar.CivilDate

theorem daysBeforeMarchYear_cycle (year cycle : Int) :
    daysBeforeMarchYear (year + 400 * cycle) = daysBeforeMarchYear year + 146097 * cycle := by
  unfold daysBeforeMarchYear
  omega

theorem daysBeforeMarchYear_succ (year : Int) :
    daysBeforeMarchYear (year + 1) =
      daysBeforeMarchYear year + if isLeapYear (year + 1) then 366 else 365 := by
  unfold daysBeforeMarchYear isLeapYear
  simp only [decide_eq_true_eq]
  split <;> omega

theorem century_yearOfCycle {day : Int} (first : 0 ≤ day) (last : day < 146096) :
    yearOfCycle day / 100 = day / 36524 := by
  unfold yearOfCycle
  omega

theorem daysBeforeMarchYear_yearOfCycle_le {day : Int} (first : 0 ≤ day) (last : day < 146096) :
    daysBeforeMarchYear (yearOfCycle day) ≤ day := by
  have century := century_yearOfCycle first last
  have year : 365 * yearOfCycle day ≤ day - day / 1460 + day / 36524 := by
    unfold yearOfCycle
    omega
  generalize yearOfCycle day = y at *
  unfold daysBeforeMarchYear
  have leaps : y / 4 ≤ day / 1460 := by omega
  omega

theorem lt_daysBeforeMarchYear_yearOfCycle {day : Int} (first : 0 ≤ day) (last : day < 146096) :
    day < daysBeforeMarchYear (yearOfCycle day + 1) := by
  have century := century_yearOfCycle first last
  have year : day - day / 1460 + day / 36524 < 365 * yearOfCycle day + 365 := by
    unfold yearOfCycle
    omega
  generalize yearOfCycle day = y at *
  unfold daysBeforeMarchYear
  -- The year after the last of a century has no leap day of its own.
  by_cases sameCentury : (y + 1) / 100 = y / 100
  · have leaps : day / 1460 ≤ (y + 1) / 4 := by omega
    omega
  · have turn : y + 1 = 100 * (day / 36524 + 1) := by omega
    have leaps : (y + 1) / 4 - (y + 1) / 100 = 24 * (day / 36524 + 1) := by omega
    omega

theorem dayOfYear_bounds {day : Int} (first : 0 ≤ day) (last : day < 146097) :
    daysBeforeMarchYear (yearOfCycle day) ≤ day ∧
      day < daysBeforeMarchYear (yearOfCycle day + 1) := by
  -- The last day alone makes the fourth century longer than the others.
  by_cases extra : day = 146096
  · subst extra
    decide
  · exact ⟨daysBeforeMarchYear_yearOfCycle_le first (by omega),
      lt_daysBeforeMarchYear_yearOfCycle first (by omega)⟩

theorem monthOffset_bounds {day : Int} (first : 0 ≤ day) (last : day < 366) :
    0 ≤ monthOffset day ∧ monthOffset day ≤ 11 := by
  unfold monthOffset
  omega

theorem dayOfMonth_bounds (day : Int) :
    daysBeforeMarchMonth (monthOffset day) ≤ day ∧
      day < daysBeforeMarchMonth (monthOffset day + 1) := by
  unfold daysBeforeMarchMonth monthOffset
  omega

/-- The date on a day of the month that comes `offset` months after a March. -/
def ofMarch (year offset : Int) (day : Nat) : CivilDate :=
  if offset < 10 then ⟨year, (offset + 3).toNat, day⟩ else ⟨year + 1, (offset - 9).toNat, day⟩

theorem dayNumber_ofMarch (year : Int) {offset : Int} (first : 0 ≤ offset) (last : offset ≤ 11)
    (day : Nat) :
    (ofMarch year offset day).dayNumber =
      daysBeforeMarchYear year + daysBeforeMarchMonth offset + day - 1 - epochDay := by
  unfold ofMarch
  split
  · have later : ¬ (offset + 3).toNat ≤ 2 := by omega
    have month : ((offset + 3).toNat : Int) - 3 = offset := by omega
    simp only [dayNumber, if_neg later, month]
  · have early : (offset - 9).toNat ≤ 2 := by omega
    have month : ((offset - 9).toNat : Int) + 9 = offset := by omega
    simp only [dayNumber, if_pos early, month, Int.add_sub_cancel]

theorem daysInMonth_le (year : Int) (month : Nat) : daysInMonth year month ≤ 31 := by
  unfold daysInMonth
  split_ifs <;> omega

/-- The month has its days, and the last month of the year ends with the year. -/
theorem valid_ofMarch {year offset : Int} {day : Nat} (first : 0 ≤ offset) (last : offset ≤ 11)
    (positive : 1 ≤ day)
    (inMonth : day ≤ daysBeforeMarchMonth (offset + 1) - daysBeforeMarchMonth offset)
    (inYear : daysBeforeMarchMonth offset + day ≤ if isLeapYear (year + 1) then 366 else 365) :
    (ofMarch year offset day).Valid := by
  unfold daysBeforeMarchMonth at inMonth inYear
  unfold ofMarch
  split
  · simp only [Valid, daysInMonth]
    split_ifs <;> omega
  · simp only [Valid, daysInMonth]
    split_ifs at inYear ⊢ <;> omega

/-- The date of a day, with its place in its month and its year. -/
theorem ofDayNumber_eq_ofMarch (days : Int) :
    ∃ year offset : Int, ∃ day : Nat, ofDayNumber days = ofMarch year offset day ∧
      0 ≤ offset ∧ offset ≤ 11 ∧ 1 ≤ day ∧
      day ≤ daysBeforeMarchMonth (offset + 1) - daysBeforeMarchMonth offset ∧
      (daysBeforeMarchMonth offset + day ≤ if isLeapYear (year + 1) then 366 else 365) ∧
      days + epochDay = daysBeforeMarchYear year + daysBeforeMarchMonth offset + day - 1 := by
  -- Years begin in March here, so that a leap day comes last and months have fixed places.
  let cycle := (days + epochDay) / 146097
  let dayOfCycle := (days + epochDay) % 146097
  let yearInCycle := yearOfCycle dayOfCycle
  let dayOfYear := dayOfCycle - daysBeforeMarchYear yearInCycle
  let offset := monthOffset dayOfYear
  let year := yearInCycle + 400 * cycle
  have inCycle : 0 ≤ dayOfCycle ∧ dayOfCycle < 146097 := by omega
  have inYear : daysBeforeMarchYear yearInCycle ≤ dayOfCycle ∧
      dayOfCycle < daysBeforeMarchYear (yearInCycle + 1) :=
    dayOfYear_bounds inCycle.1 inCycle.2
  have next := daysBeforeMarchYear_succ yearInCycle
  have start : daysBeforeMarchYear year = daysBeforeMarchYear yearInCycle + 146097 * cycle :=
    daysBeforeMarchYear_cycle yearInCycle cycle
  have sameLength : isLeapYear (year + 1) = isLeapYear (yearInCycle + 1) := by
    simp only [isLeapYear, decide_eq_decide]
    omega
  have length : dayOfYear < if isLeapYear (year + 1) then 366 else 365 := by
    rw [sameLength]
    omega
  have bounds : 0 ≤ dayOfYear ∧ dayOfYear < 366 := by
    split at length <;> omega
  have offsetBounds : 0 ≤ offset ∧ offset ≤ 11 := monthOffset_bounds bounds.1 bounds.2
  have inMonth : daysBeforeMarchMonth offset ≤ dayOfYear ∧
      dayOfYear < daysBeforeMarchMonth (offset + 1) := dayOfMonth_bounds dayOfYear
  refine ⟨year, offset, (dayOfYear - daysBeforeMarchMonth offset + 1).toNat, rfl,
    offsetBounds.1, offsetBounds.2, ?_, ?_, ?_, ?_⟩
  · omega
  · omega
  · split_ifs at length ⊢ <;> omega
  · omega

theorem valid_ofDayNumber (days : Int) : (ofDayNumber days).Valid := by
  obtain ⟨year, offset, day, date, first, last, positive, inMonth, inYear, _⟩ :=
    ofDayNumber_eq_ofMarch days
  rw [date]
  exact valid_ofMarch first last positive inMonth inYear

@[simp] theorem dayNumber_ofDayNumber (days : Int) : (ofDayNumber days).dayNumber = days := by
  obtain ⟨year, offset, day, date, first, last, _, _, _, count⟩ := ofDayNumber_eq_ofMarch days
  rw [date, dayNumber_ofMarch year first last]
  omega

theorem newYear_le_dayNumber {d : CivilDate} (valid : d.Valid) :
    dayNumber ⟨d.year, 1, 1⟩ ≤ d.dayNumber := by
  obtain ⟨firstMonth, lastMonth, firstDay, _⟩ := valid
  unfold dayNumber daysBeforeMarchYear daysBeforeMarchMonth
  simp only
  split_ifs <;> omega

theorem dayNumber_lt_newYear {d : CivilDate} (valid : d.Valid) :
    d.dayNumber < dayNumber ⟨d.year + 1, 1, 1⟩ := by
  obtain ⟨firstMonth, lastMonth, firstDay, lastDay⟩ := valid
  unfold daysInMonth isLeapYear at lastDay
  unfold dayNumber daysBeforeMarchYear daysBeforeMarchMonth
  simp only [decide_eq_true_eq] at lastDay ⊢
  split_ifs at lastDay ⊢ <;> omega

theorem newYear_mono {a b : Int} (le : a ≤ b) : dayNumber ⟨a, 1, 1⟩ ≤ dayNumber ⟨b, 1, 1⟩ := by
  unfold dayNumber daysBeforeMarchYear
  simp only
  split_ifs <;> omega

/-- Days between the first days of two years have dates in the years between them. -/
theorem year_ofDayNumber_bounds {days first last : Int}
    (notBefore : dayNumber ⟨first, 1, 1⟩ ≤ days) (notAfter : days < dayNumber ⟨last + 1, 1, 1⟩) :
    first ≤ (ofDayNumber days).year ∧ (ofDayNumber days).year ≤ last := by
  have valid := valid_ofDayNumber days
  have lower := newYear_le_dayNumber valid
  have upper := dayNumber_lt_newYear valid
  rw [dayNumber_ofDayNumber] at lower upper
  constructor
  · by_contra early
    have before := newYear_mono (show (ofDayNumber days).year + 1 ≤ first by omega)
    omega
  · by_contra late
    have after := newYear_mono (show last + 1 ≤ (ofDayNumber days).year by omega)
    omega

end ObsCatalog.Calendar.CivilDate
