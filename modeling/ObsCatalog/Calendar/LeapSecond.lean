import ObsCatalog.Calendar.Instant

/-! Leap seconds since the GPS epoch.

GPS time has no leap seconds, so it runs ahead of UTC by one second for each leap
second inserted since 1980-01-06. A leap second comes just before the first of
January or of July.
-/

set_option autoImplicit false

namespace ObsCatalog.Calendar

/-- The second 1980-01-06 00:00:00. -/
def gpsEpoch : Int := CivilDate.dayNumber ⟨1980, 1, 6⟩ * secondsPerDay

example : gpsEpoch = 315964800 := by decide

/-- The months, as year and month, whose first day follows a leap second. -/
def leapMonths : List (Int × Nat) :=
  [(1981, 7), (1982, 7), (1983, 7), (1985, 7), (1988, 1), (1990, 1), (1991, 1), (1992, 7),
   (1993, 7), (1994, 7), (1996, 1), (1997, 7), (1999, 1), (2006, 1), (2009, 1), (2012, 7),
   (2015, 7), (2017, 1)]

/-- The first second after each leap second, in order. -/
def leapSeconds : List Int :=
  leapMonths.map fun (year, month) => CivilDate.dayNumber ⟨year, month, 1⟩ * secondsPerDay

/-- Seconds by which GPS time is ahead of UTC at a second. -/
def gpsLead (second : Int) : Int := leapSeconds.countP (· ≤ second)

example : gpsLead 1483228799 = 17 ∧ gpsLead 1483228800 = 18 := by decide

theorem gpsLead_nonneg (second : Int) : 0 ≤ gpsLead second := by
  unfold gpsLead; exact Int.natCast_nonneg _

theorem gpsLead_le (second : Int) : gpsLead second ≤ 18 := by
  have bound := List.countP_le_length (p := (· ≤ second)) (l := leapSeconds)
  have length : leapSeconds.length = 18 := rfl
  unfold gpsLead; omega

theorem gpsLead_mono {a b : Int} (le : a ≤ b) : gpsLead a ≤ gpsLead b := by
  unfold gpsLead
  exact Int.ofNat_le.2 (List.countP_mono_left fun x _ h => by simp at h ⊢; omega)

end ObsCatalog.Calendar
