import ObsCatalog.Proofs.Calendar.Stamp
import Mathlib.Tactic.IntervalCases

/-! Dates and instants in order.

Of two days the earlier one has the smaller year, or the smaller month of the same year, or the
smaller day of the same month. The time of day goes on in the same way, with a leap second as
the last second of its minute, so instants are ordered as their fields are.
-/

set_option autoImplicit false

namespace ObsCatalog.Calendar

namespace CivilDate

def order (a b : CivilDate) : Ordering :=
  (compare a.year b.year).then ((compare a.month b.month).then (compare a.day b.day))

theorem dayNumber_lt_of_month {year : Int} {month later day other : Nat}
    (valid : Valid ⟨year, month, day⟩) (validLater : Valid ⟨year, later, other⟩)
    (before : month < later) : dayNumber ⟨year, month, day⟩ < dayNumber ⟨year, later, other⟩ := by
  obtain ⟨first, -, -, inMonth⟩ := valid
  obtain ⟨-, last, positive, -⟩ := validLater
  simp only [daysInMonth, isLeapYear, decide_eq_true_eq] at first last positive inMonth
  simp only [dayNumber, daysBeforeMarchYear, daysBeforeMarchMonth]
  -- Months differ in length, so each is looked at by itself.
  have notLast : month ≤ 11 := by omega
  interval_cases month <;> simp at inMonth ⊢ <;> split_ifs at inMonth ⊢ <;> omega

theorem dayNumber_lt_of_order {a b : CivilDate} (validA : a.Valid) (validB : b.Valid)
    (before : a.order b = .lt) : a.dayNumber < b.dayNumber := by
  obtain ⟨year, month, day⟩ := a
  obtain ⟨yearB, monthB, dayB⟩ := b
  simp only [order, Ordering.then_eq_lt, Std.compare_eq_lt, Std.LawfulEqCmp.compare_eq_iff_eq] at before
  rcases before with sooner | ⟨rfl, sooner | ⟨rfl, sooner⟩⟩
  · have next := newYear_mono (show year + 1 ≤ yearB by omega)
    have left := dayNumber_lt_newYear validA
    have right := newYear_le_dayNumber validB
    simp only at left right
    omega
  · exact dayNumber_lt_of_month validA validB sooner
  · simp only [dayNumber]
    omega

theorem order_swap (a b : CivilDate) : (a.order b).swap = b.order a := by
  simp only [order, Ordering.swap_then, Std.OrientedOrd.eq_swap (a := b.year),
    Std.OrientedOrd.eq_swap (a := b.month), Std.OrientedOrd.eq_swap (a := b.day)]

theorem order_eq_compare {a b : CivilDate} (validA : a.Valid) (validB : b.Valid) :
    a.order b = compare a.dayNumber b.dayNumber := by
  cases outcome : a.order b with
  | lt => exact (Std.compare_eq_lt.2 (dayNumber_lt_of_order validA validB outcome)).symm
  | eq =>
    simp only [order, Ordering.then_eq_eq, Std.LawfulEqCmp.compare_eq_iff_eq] at outcome
    obtain ⟨year, month, day⟩ := outcome
    have same : a = b := by
      cases a
      cases b
      simp_all
    rw [same]
    exact Std.ReflCmp.compare_self.symm
  | gt =>
    have other : b.order a = .lt := by rw [← order_swap, outcome]; rfl
    exact (Std.compare_eq_gt.2 (dayNumber_lt_of_order validB validA other)).symm

end CivilDate

namespace Instant

def order (a b : Instant) : Ordering := (compare a.second b.second).then (compare a.nano b.nano)

variable {a b : Instant}

theorem order_eq_lt : a.order b = .lt ↔ a.before b := by
  simp only [order, before, Ordering.then_eq_lt, Std.compare_eq_lt,
    Std.LawfulEqCmp.compare_eq_iff_eq]

theorem order_eq_eq : a.order b = .eq ↔ a = b := by
  simp only [order, Ordering.then_eq_eq, Std.LawfulEqCmp.compare_eq_iff_eq]
  constructor
  · rintro ⟨second, nano⟩
    cases a
    cases b
    simp_all
  · rintro rfl
    exact ⟨rfl, rfl⟩

theorem order_eq_gt : a.order b = .gt ↔ b.before a := by
  simp only [order, before, Ordering.then_eq_gt, Std.compare_eq_gt,
    Std.LawfulEqCmp.compare_eq_iff_eq, eq_comm (a := b.second)]

/-- Hours are compared first, then minutes, then seconds; a leap second is second 60. -/
def clockOrder (a b : Instant) : Ordering :=
  (compare a.hour b.hour).then
    ((compare a.minute b.minute).then (compare a.secondOfMinute b.secondOfMinute))

theorem eq_of_lt_iff_of_gt_iff {o other : Ordering} (less : o = .lt ↔ other = .lt)
    (greater : o = .gt ↔ other = .gt) : o = other := by
  cases o <;> cases other <;> simp at less greater ⊢

theorem IsSettled.secondOfDay_of_isLeap {t : Instant} (settled : t.IsSettled) (leap : t.isLeap) :
    t.secondOfDay % 60 = 59 := by
  have last := settled leap
  unfold secondOfDay secondsPerDay
  omega

theorem secondOfMinute_eq (t : Instant) :
    t.secondOfMinute = t.secondOfDay % 60 + t.wholeSecond.nano / nanosPerSecond := by
  have bound := t.nano_lt
  have whole : t.wholeSecond.nano = if t.isLeap then nanosPerSecond else 0 := rfl
  rw [whole, secondOfMinute]
  by_cases leap : t.isLeap
  · rw [if_pos leap]
    unfold isLeap nanosPerSecond at *
    omega
  · rw [if_neg leap]
    unfold isLeap nanosPerSecond at *
    omega

/-- In one day clocks are ordered as the seconds are, and a leap second comes after the second
before it. -/
theorem clockOrder_eq {a b : Instant} (settledA : a.IsSettled) (settledB : b.IsSettled) :
    a.clockOrder b = (compare a.secondOfDay b.secondOfDay).then
      (compare a.wholeSecond.nano b.wholeSecond.nano) := by
  have whole {t : Instant} (settled : t.IsSettled) : t.wholeSecond.nano = 0 ∨
      t.wholeSecond.nano = 1000000000 ∧ t.secondOfDay % 60 = 59 := by
    by_cases leap : t.isLeap
    · exact .inr ⟨if_pos leap, settled.secondOfDay_of_isLeap leap⟩
    · exact .inl (if_neg leap)
  have wholeA := whole settledA
  have wholeB := whole settledB
  unfold clockOrder hour minute
  rw [secondOfMinute_eq, secondOfMinute_eq]
  unfold nanosPerSecond
  generalize a.secondOfDay = x, a.wholeSecond.nano = p at *
  generalize b.secondOfDay = y, b.wholeSecond.nano = q at *
  refine eq_of_lt_iff_of_gt_iff ?_ ?_
  · simp only [Ordering.then_eq_lt, Std.compare_eq_lt, Std.LawfulEqCmp.compare_eq_iff_eq]
    omega
  · simp only [Ordering.then_eq_gt, Std.compare_eq_gt, Std.LawfulEqCmp.compare_eq_iff_eq]
    omega

/-- Instants without fractions are ordered as their dates are and, on one day, their clocks. -/
theorem order_wholeSecond {a b : Instant} (settledA : a.IsSettled) (settledB : b.IsSettled) :
    a.wholeSecond.order b.wholeSecond = (a.date.order b.date).then (a.clockOrder b) := by
  rw [clockOrder_eq settledA settledB, CivilDate.order_eq_compare a.valid_date b.valid_date]
  unfold order date secondOfDay secondsPerDay
  rw [CivilDate.dayNumber_ofDayNumber, CivilDate.dayNumber_ofDayNumber, second_wholeSecond,
    second_wholeSecond]
  generalize a.wholeSecond.nano = p
  generalize b.wholeSecond.nano = q
  refine eq_of_lt_iff_of_gt_iff ?_ ?_
  · simp only [Ordering.then_eq_lt, Std.compare_eq_lt, Std.LawfulEqCmp.compare_eq_iff_eq]
    omega
  · simp only [Ordering.then_eq_gt, Std.compare_eq_gt, Std.LawfulEqCmp.compare_eq_iff_eq]
    omega

end Instant

end ObsCatalog.Calendar
