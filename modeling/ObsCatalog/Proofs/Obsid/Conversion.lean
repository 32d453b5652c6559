import ObsCatalog.Obsid.Basic
import Mathlib.Algebra.Group.Int.Defs
import Mathlib.Tactic.ByContra

/-! Obsids and instants.

The table of leap seconds is sorted and its entries lie further apart than the whole
lead of GPS time. So between an instant and the same instant moved by the lead there is
at most one entry, and where there is one the first guess is one second too early and
the second look-up still finds the lead of the instant.
-/

set_option autoImplicit false

namespace ObsCatalog.Calendar

/-- Between a number and one at most `gap` above it there is at most one entry of a
table whose entries are more than `gap` apart. If there is one, the number is no entry
itself. -/
theorem countP_of_spaced {gap : Int} {table : List Int}
    (spaced : table.Pairwise fun a b => a + gap < b) {low high : Int} (le : low ≤ high)
    (near : high ≤ low + gap) :
    table.countP (· ≤ high) = table.countP (· ≤ low) ∨
      table.countP (· ≤ high) = table.countP (· ≤ low) + 1 ∧
        table.countP (· ≤ low - 1) = table.countP (· ≤ low) := by
  induction table with
  | nil => exact .inl rfl
  | cons entry rest ih =>
    obtain ⟨apart, spaced⟩ := List.pairwise_cons.1 spaced
    -- Whatever is not above the entry by more than the gap comes before the rest.
    have absent {n : Int} (small : n ≤ entry + gap) : rest.countP (· ≤ n) = 0 := by
      refine List.countP_eq_zero.2 fun other member => ?_
      have above := apart other member
      simp only [decide_eq_true_eq]
      omega
    simp only [List.countP_cons, decide_eq_true_eq]
    by_cases below : entry ≤ low
    · rcases ih spaced with same | ⟨more, same⟩
      · left
        rw [same, if_pos below, if_pos (show entry ≤ high by omega)]
      · have strict : entry ≠ low := by
          rintro rfl
          have none := absent near
          omega
        right
        rw [more, same, if_pos below, if_pos (show entry ≤ high by omega),
          if_pos (show entry ≤ low - 1 by omega)]
        exact ⟨by omega, rfl⟩
    · have none := absent (show high ≤ entry + gap by omega)
      have noneLow := absent (show low ≤ entry + gap by omega)
      have noneBefore := absent (show low - 1 ≤ entry + gap by omega)
      rw [none, noneLow, noneBefore, if_neg below, if_neg (show ¬ entry ≤ low - 1 by omega)]
      by_cases within : entry ≤ high
      · rw [if_pos within]
        exact .inr ⟨rfl, rfl⟩
      · rw [if_neg within]
        exact .inl rfl

theorem leapSeconds_spaced : leapSeconds.Pairwise fun a b => a + 18 < b := by decide

/-- The lead grows by at most one over a span as long as the lead can ever be. -/
theorem gpsLead_near {second later : Int} (le : second ≤ later) (near : later ≤ second + 18) :
    gpsLead later = gpsLead second ∨
      gpsLead later = gpsLead second + 1 ∧ gpsLead (second - 1) = gpsLead second := by
  rcases countP_of_spaced leapSeconds_spaced le near with same | ⟨more, same⟩
  · exact .inl (congrArg Int.ofNat same)
  · refine .inr ⟨?_, congrArg Int.ofNat same⟩
    unfold gpsLead
    omega

theorem gpsLead_firstGuess (second : Int) :
    gpsLead (second + gpsLead second - gpsLead (second + gpsLead second)) = gpsLead second := by
  have nonneg := gpsLead_nonneg second
  have bound := gpsLead_le second
  -- With an entry in between, the first guess is a second early but before no other entry.
  rcases gpsLead_near (show second ≤ second + gpsLead second by omega) (by omega) with
    same | ⟨more, same⟩
  · rw [same, Int.add_sub_cancel]
  · have guess : second + gpsLead second - gpsLead (second + gpsLead second) = second - 1 := by
      omega
    rw [guess, same]

theorem gpsLead_of_le {second : Int} (early : second ≤ gpsEpoch) : gpsLead second = 0 := by
  have first : gpsLead gpsEpoch = 0 := by decide
  have least := gpsLead_mono early
  have nonneg := gpsLead_nonneg second
  omega

end ObsCatalog.Calendar

namespace ObsCatalog.Obsid

open Calendar

def Fits (n : Int) : Prop := Int64.minValue.toInt ≤ n ∧ n ≤ Int64.maxValue.toInt

theorem gpsSecond_pos_iff (second : Int) : 0 < gpsSecond second ↔ gpsEpoch < second := by
  have nonneg := gpsLead_nonneg second
  unfold gpsSecond
  constructor
  · intro positive
    by_contra early
    have none := gpsLead_of_le (show second ≤ gpsEpoch by omega)
    omega
  · intro late
    omega

theorem fits_iff {n : Int} : Fits n ↔ -2 ^ 63 ≤ n ∧ n < 2 ^ 63 := by
  have least : Int64.minValue.toInt = -2 ^ 63 := by decide
  have greatest : Int64.maxValue.toInt = 2 ^ 63 - 1 := by decide
  unfold Fits
  omega

theorem fits_gpsSecond (t : Instant) :
    Fits (t.second - gpsEpoch) ∧ Fits (gpsLead t.second) ∧ Fits (gpsSecond t.second) := by
  have nonneg := gpsLead_nonneg t.second
  have bound := gpsLead_le t.second
  have lower := t.first_le
  have upper := t.le_last
  have first : firstSecond = -8334601228800 := by decide
  have last : lastSecond = 8210266876799 := by decide
  have epoch : gpsEpoch = 315964800 := by decide
  simp only [fits_iff, gpsSecond]
  omega

/-- Nothing that is computed from an obsid is too large, if its uncorrected second is not. -/
theorem fits_unixSecond {obsid : Int64} (positive : 0 < obsid)
    (small : uncorrected obsid ≤ Int64.maxValue.toInt) :
    Fits (uncorrected obsid) ∧ Fits (gpsLead (uncorrected obsid)) ∧ Fits (firstGuess obsid) ∧
      Fits (gpsLead (firstGuess obsid)) ∧ Fits (unixSecond obsid) := by
  have leadBound := gpsLead_le (uncorrected obsid)
  have leadNonneg := gpsLead_nonneg (uncorrected obsid)
  have guessBound := gpsLead_le (firstGuess obsid)
  have guessNonneg := gpsLead_nonneg (firstGuess obsid)
  have epoch : gpsEpoch = 315964800 := by decide
  have greatest : Int64.maxValue.toInt = 2 ^ 63 - 1 := by decide
  have above : 0 < obsid.toInt := Int64.lt_iff_toInt_lt.1 positive
  have start : uncorrected obsid = obsid.toInt + gpsEpoch := rfl
  have guess : firstGuess obsid = uncorrected obsid - gpsLead (uncorrected obsid) := rfl
  have second : unixSecond obsid = uncorrected obsid - gpsLead (firstGuess obsid) := rfl
  simp only [fits_iff]
  omega

theorem toInt_ofInt_gpsSecond (t : Instant) :
    (Int64.ofInt (gpsSecond t.second)).toInt = gpsSecond t.second := by
  obtain ⟨_, _, fits⟩ := fits_gpsSecond t
  exact Int64.toInt_ofInt_of_le (fits_iff.1 fits).1 (fits_iff.1 fits).2

theorem uncorrected_ofInt_gpsSecond (t : Instant) :
    uncorrected (Int64.ofInt (gpsSecond t.second)) = t.second + gpsLead t.second := by
  rw [uncorrected, toInt_ofInt_gpsSecond, gpsSecond]
  omega

theorem unixSecond_ofInt_gpsSecond (t : Instant) :
    unixSecond (Int64.ofInt (gpsSecond t.second)) = t.second := by
  rw [unixSecond, firstGuess, uncorrected_ofInt_gpsSecond, gpsLead_firstGuess, Int.add_sub_cancel]

theorem ofInstant_of_lt {t : Instant} (late : gpsEpoch < t.second) :
    ofInstant t = .ok (Int64.ofInt (gpsSecond t.second)) := by
  have positive := (gpsSecond_pos_iff t.second).2 late
  rw [ofInstant, if_neg (by omega)]

theorem ofInstant_of_le {t : Instant} (early : t.second ≤ gpsEpoch) :
    ofInstant t = .error (.outOfRange (t.display ++ " is not after the GPS epoch")) := by
  have none : gpsSecond t.second ≤ 0 := by
    by_contra positive
    have late := (gpsSecond_pos_iff t.second).1 (by omega)
    omega
  rw [ofInstant, if_pos none]

theorem ofInt_gpsSecond_pos {t : Instant} (late : gpsEpoch < t.second) :
    0 < Int64.ofInt (gpsSecond t.second) := by
  have positive := (gpsSecond_pos_iff t.second).2 late
  rw [Int64.lt_iff_toInt_lt, toInt_ofInt_gpsSecond]
  exact positive

theorem uncorrected_ofInt_le (t : Instant) :
    uncorrected (Int64.ofInt (gpsSecond t.second)) ≤ Int64.maxValue.toInt := by
  have bound := gpsLead_le t.second
  have upper := t.le_last
  have last : lastSecond = 8210266876799 := by decide
  have greatest : Int64.maxValue.toInt = 2 ^ 63 - 1 := by decide
  rw [uncorrected_ofInt_gpsSecond]
  omega

theorem ofSecond?_second (t : Instant) :
    ∃ u, Instant.ofSecond? t.second = some u ∧ u.second = t.second ∧ u.nano = 0 := by
  let u : Instant := ⟨t.second, 0, t.first_le, t.le_last, by decide, by decide⟩
  have settled : u.IsSettled := fun late => absurd (show nanosPerSecond ≤ 0 from late) (by decide)
  exact ⟨u, Instant.ofParts?_parts settled, rfl, rfl⟩

theorem toInstant_ofInt_gpsSecond {t : Instant} (late : gpsEpoch < t.second) :
    ∃ u, toInstant (Int64.ofInt (gpsSecond t.second)) = .ok u ∧
      u.second = t.second ∧ u.nano = 0 := by
  obtain ⟨u, start, second, whole⟩ := ofSecond?_second t
  have positive := ofInt_gpsSecond_pos late
  have small := uncorrected_ofInt_le t
  have accepted : ¬ (Int64.ofInt (gpsSecond t.second) ≤ 0 ∨
      Int64.maxValue.toInt < uncorrected (Int64.ofInt (gpsSecond t.second))) := by
    rintro (none | large)
    · exact absurd positive (Int64.not_lt.2 none)
    · omega
  refine ⟨u, ?_, second, whole⟩
  rw [toInstant, if_neg accepted, unixSecond_ofInt_gpsSecond, start]

/-- An instant has an obsid exactly when its second is after the start of GPS time. The
obsid is positive and stands for the start of that second, next to leap seconds as
elsewhere. All sums on the way there and back have 64 bits. -/
theorem toInstant_ofInstant (t : Instant) :
    ((∃ obsid, ofInstant t = .ok obsid) ↔ gpsEpoch < t.second) ∧
    (∀ fault, ofInstant t = .error fault → ∃ subject, fault = .outOfRange subject) ∧
    (Fits (t.second - gpsEpoch) ∧ Fits (gpsLead t.second) ∧ Fits (gpsSecond t.second)) ∧
    ∀ obsid, ofInstant t = .ok obsid →
      0 < obsid ∧
      (∃ u, toInstant obsid = .ok u ∧ u.second = t.second ∧ u.nano = 0) ∧
      Fits (uncorrected obsid) ∧ Fits (gpsLead (uncorrected obsid)) ∧ Fits (firstGuess obsid) ∧
      Fits (gpsLead (firstGuess obsid)) ∧ Fits (unixSecond obsid) := by
  by_cases late : gpsEpoch < t.second
  · have found := ofInstant_of_lt late
    refine ⟨⟨fun _ => late, fun _ => ⟨_, found⟩⟩, ?_, fits_gpsSecond t, ?_⟩
    · intro fault failed
      rw [found] at failed
      cases failed
    · intro obsid named
      rw [found] at named
      cases named
      exact ⟨ofInt_gpsSecond_pos late, toInstant_ofInt_gpsSecond late,
        fits_unixSecond (ofInt_gpsSecond_pos late) (uncorrected_ofInt_le t)⟩
  · have failed := ofInstant_of_le (show t.second ≤ gpsEpoch by omega)
    refine ⟨⟨?_, fun found => absurd found late⟩, ?_, fits_gpsSecond t, ?_⟩
    · rintro ⟨obsid, found⟩
      rw [failed] at found
      cases found
    · intro fault same
      rw [failed] at same
      cases same
      exact ⟨_, rfl⟩
    · intro obsid found
      rw [failed] at found
      cases found

/-- The leap second before 2017: its obsid is that of the second before it. -/
theorem toInstant_ofInstant_leap :
    ∃ t : Instant, t.isLeap ∧ ofInstant t = .ok 1167264016 ∧
      ∃ u, toInstant 1167264016 = .ok u ∧ u.second = t.second ∧ u.nano = 0 := by
  let t : Instant := ⟨1483228799, 1500000000, by decide, by decide, by decide, by decide⟩
  have found : ofInstant t = .ok 1167264016 := by rfl
  exact ⟨t, by decide, found, ((toInstant_ofInstant t).2.2.2 _ found).2.1⟩

end ObsCatalog.Obsid
