import ObsCatalog.Proofs.Obsid.Conversion

/-! The seconds of obsids.

GPS seconds and seconds of UTC run side by side, except that GPS time counts one second
more where a leap second is inserted. Every GPS second stands for one second of UTC; those
that two of them stand for are the seconds after the leap seconds. The two look-ups for an
obsid come to just this second.
-/

set_option autoImplicit false

namespace ObsCatalog.Calendar

theorem countP_le_eq (table : List Int) (n : Int) :
    table.countP (· ≤ n) = table.countP (· ≤ n - 1) + table.count n := by
  induction table with
  | nil => rfl
  | cons entry rest ih =>
    simp only [List.countP_cons, List.count_cons, decide_eq_true_eq, beq_iff_eq, ih]
    by_cases same : entry = n
    · rw [if_pos same, if_pos (show entry ≤ n by omega), if_neg (show ¬ entry ≤ n - 1 by omega)]
      omega
    · by_cases before : entry ≤ n - 1
      · rw [if_neg same, if_pos before, if_pos (show entry ≤ n by omega)]
        omega
      · rw [if_neg same, if_neg before, if_neg (show ¬ entry ≤ n by omega)]
        rfl

theorem leapSeconds_nodup : leapSeconds.Nodup :=
  leapSeconds_spaced.imp fun apart => by omega

example : leapSeconds.length = 18 := rfl

theorem gpsLead_eq (second : Int) :
    gpsLead second = gpsLead (second - 1) + if second ∈ leapSeconds then 1 else 0 := by
  have once : leapSeconds.count second = if second ∈ leapSeconds then 1 else 0 :=
    leapSeconds_nodup.count
  have sum := countP_le_eq leapSeconds second
  unfold gpsLead
  split <;> simp_all

end ObsCatalog.Calendar

namespace ObsCatalog.Obsid

open Calendar

/-- A GPS second stands for the first second of UTC that does not come before it. -/
def StandsFor (gps second : Int) : Prop := gpsSecond (second - 1) < gps ∧ gps ≤ gpsSecond second

/-- The GPS second that is an inserted leap second. It comes right after the last second
before one of the months in the table. -/
def IsLeapSecond (gps : Int) : Prop := ∃ second ∈ leapSeconds, gps = gpsSecond (second - 1) + 1

variable {gps second : Int} {obsid : Int64}

/-- From one second to the next GPS time counts one second, or two with a leap second. -/
theorem gpsSecond_eq (second : Int) :
    gpsSecond second = gpsSecond (second - 1) + 1 + if second ∈ leapSeconds then 1 else 0 := by
  have lead := gpsLead_eq second
  unfold gpsSecond
  omega

theorem gpsSecond_mono {a b : Int} (le : a ≤ b) : gpsSecond a ≤ gpsSecond b := by
  have lead := gpsLead_mono le
  unfold gpsSecond
  omega

theorem StandsFor.mono {later other : Int} (stands : StandsFor gps second)
    (otherStands : StandsFor later other) (le : gps ≤ later) : second ≤ other := by
  by_contra reversed
  have before := gpsSecond_mono (show other ≤ second - 1 by omega)
  have above := stands.1
  have below := otherStands.2
  omega

theorem StandsFor.unique {other : Int} (stands : StandsFor gps second)
    (otherStands : StandsFor gps other) : second = other :=
  Int.le_antisymm (stands.mono otherStands (Int.le_refl gps))
    (otherStands.mono stands (Int.le_refl gps))

theorem standsFor_unixSecond (obsid : Int64) : StandsFor obsid.toInt (unixSecond obsid) := by
  have nonneg := gpsLead_nonneg (uncorrected obsid)
  have bound := gpsLead_le (uncorrected obsid)
  have start : uncorrected obsid = obsid.toInt + gpsEpoch := rfl
  have guess : firstGuess obsid = uncorrected obsid - gpsLead (uncorrected obsid) := rfl
  have found : unixSecond obsid = uncorrected obsid - gpsLead (firstGuess obsid) := rfl
  -- Either the first guess is the second already or it is the one before.
  rcases gpsLead_near (show firstGuess obsid ≤ uncorrected obsid by omega) (by omega) with
    same | ⟨more, -⟩
  · have second : unixSecond obsid = firstGuess obsid := by omega
    have before := gpsLead_mono (show firstGuess obsid - 1 ≤ firstGuess obsid by omega)
    rw [second]
    constructor <;> unfold gpsSecond <;> omega
  · have second : unixSecond obsid = firstGuess obsid + 1 := by omega
    have after := gpsLead_mono (show firstGuess obsid ≤ firstGuess obsid + 1 by omega)
    rw [second]
    constructor <;> unfold gpsSecond
    · rw [Int.add_sub_cancel]
      omega
    · omega

/-- A leap second stands for the second after it, as the next GPS second does. Any other GPS
second is the one that its second of UTC begins with. -/
theorem StandsFor.gpsSecond_eq (stands : StandsFor gps second) :
    IsLeapSecond gps ∧ gpsSecond second = gps + 1 ∨
      ¬ IsLeapSecond gps ∧ gpsSecond second = gps := by
  have counted := Obsid.gpsSecond_eq second
  obtain ⟨above, below⟩ := stands
  by_cases reached : gpsSecond second = gps
  · refine .inr ⟨?_, reached⟩
    rintro ⟨other, leap, rfl⟩
    have count := Obsid.gpsSecond_eq other
    rw [if_pos leap] at count
    obtain rfl : second = other :=
      StandsFor.unique ⟨above, below⟩ ⟨by omega, by omega⟩
    omega
  · by_cases leap : second ∈ leapSeconds
    · rw [if_pos leap] at counted
      exact .inl ⟨⟨second, leap, by omega⟩, by omega⟩
    · rw [if_neg leap] at counted
      omega

/-- The next GPS second stands for the same second after a leap second, else for the next. -/
theorem StandsFor.succ (stands : StandsFor gps second) :
    IsLeapSecond gps ∧ StandsFor (gps + 1) second ∨
      ¬ IsLeapSecond gps ∧ StandsFor (gps + 1) (second + 1) := by
  rcases stands.gpsSecond_eq with ⟨leap, next⟩ | ⟨plain, reached⟩
  · have above := stands.1
    exact .inl ⟨leap, by omega, by omega⟩
  · have later := Obsid.gpsSecond_eq (second + 1)
    rw [Int.add_sub_cancel] at later
    refine .inr ⟨plain, ?_, ?_⟩
    · rw [Int.add_sub_cancel]
      omega
    · split at later <;> omega

theorem ofSecond?_eq_some_iff {second : Int} {t : Instant} :
    Instant.ofSecond? second = some t ↔ t.second = second ∧ t.nano = 0 := by
  constructor
  · exact Instant.parts_of_ofParts?
  · rintro ⟨rfl, whole⟩
    have settled : t.IsSettled := fun late => absurd (whole ▸ late) (by decide)
    rw [Instant.ofSecond?, ← whole, Instant.ofParts?_parts settled]

/-- Nothing is lost by the limit on the uncorrected second: beyond it there are no instants. -/
theorem toInstant_eq_ok_iff {t : Instant} :
    toInstant obsid = .ok t ↔ 0 < obsid ∧ t.second = unixSecond obsid ∧ t.nano = 0 := by
  have lead := gpsLead_le (firstGuess obsid)
  have found : unixSecond obsid = uncorrected obsid - gpsLead (firstGuess obsid) := rfl
  have greatest : Int64.maxValue.toInt = 2 ^ 63 - 1 := by decide
  have last : lastSecond = 8210266876799 := by decide
  unfold toInstant
  by_cases refused : obsid ≤ 0 ∨ Int64.maxValue.toInt < uncorrected obsid
  · rw [if_pos refused]
    refine ⟨nofun, ?_⟩
    rintro ⟨positive, second, -⟩
    have upper := t.le_last
    rcases refused with none | large
    · exact absurd positive (Int64.not_lt.2 none)
    · omega
  · obtain ⟨positive, -⟩ := not_or.1 refused
    rw [if_neg refused, ← ofSecond?_eq_some_iff]
    cases Instant.ofSecond? (unixSecond obsid) with
    | none => exact ⟨nofun, nofun⟩
    | some u => simp [Int64.not_le.1 positive]

theorem toInstant_error {fault : ObsidFault} (failed : toInstant obsid = .error fault) :
    fault = outOfRange obsid := by
  unfold toInstant at failed
  split at failed
  · cases failed
    rfl
  · split at failed
    · cases failed
    · cases failed
      rfl

theorem standsFor_of_toInstant {t : Instant} (found : toInstant obsid = .ok t) :
    StandsFor obsid.toInt t.second := by
  rw [(toInstant_eq_ok_iff.1 found).2.1]
  exact standsFor_unixSecond obsid

theorem toInstant_isOk_iff : (∃ t, toInstant obsid = .ok t) ↔
    1 ≤ obsid ∧ ∃ second, StandsFor obsid.toInt second ∧
      firstSecond ≤ second ∧ second ≤ lastSecond := by
  have one : (1 : Int64).toInt = 1 := by decide
  have zero : (0 : Int64).toInt = 0 := by decide
  have positive : 1 ≤ obsid ↔ 0 < obsid := by
    rw [Int64.le_iff_toInt_le, Int64.lt_iff_toInt_lt]
    omega
  rw [positive]
  constructor
  · rintro ⟨t, found⟩
    exact ⟨(toInstant_eq_ok_iff.1 found).1, t.second, standsFor_of_toInstant found, t.first_le,
      t.le_last⟩
  · rintro ⟨positive, second, stands, lower, upper⟩
    obtain rfl := stands.unique (standsFor_unixSecond obsid)
    let t : Instant := ⟨unixSecond obsid, 0, lower, upper, by decide, by decide⟩
    exact ⟨t, toInstant_eq_ok_iff.2 ⟨positive, rfl, rfl⟩⟩

theorem toInt_succ {t : Instant} (found : toInstant obsid = .ok t) :
    (obsid + 1).toInt = obsid.toInt + 1 ∧ 0 < obsid + 1 := by
  obtain ⟨positive, -, -⟩ := toInstant_eq_ok_iff.1 found
  have above : 0 < obsid.toInt := Int64.lt_iff_toInt_lt.1 positive
  have below := (standsFor_of_toInstant found).2
  have small := (fits_iff.1 (fits_gpsSecond t).2.2).2
  have lead := gpsLead_le t.second
  have upper := t.le_last
  have last : lastSecond = 8210266876799 := by decide
  have epoch : gpsEpoch = 315964800 := by decide
  have one : (1 : Int64).toInt = 1 := by decide
  have next : (obsid + 1).toInt = obsid.toInt + 1 := by
    unfold gpsSecond at below
    rw [Int64.toInt_add, one, Int.bmod_eq_of_le (by omega) (by omega)]
  refine ⟨next, Int64.lt_iff_toInt_lt.2 ?_⟩
  rw [next]
  exact Int.lt_add_one_of_le (Int.le_of_lt above)

theorem toInstant_mono {later : Int64} {t u : Instant} (found : toInstant obsid = .ok t)
    (foundLater : toInstant later = .ok u) (le : obsid ≤ later) : t.second ≤ u.second :=
  (standsFor_of_toInstant found).mono (standsFor_of_toInstant foundLater)
    (Int64.le_iff_toInt_le.1 le)

/-- Two obsids in a row stand for the same instant if the first is a leap second, else for
seconds in a row. -/
theorem toInstant_succ {t : Instant} (found : toInstant obsid = .ok t) :
    (toInstant (obsid + 1) = .ok t ↔ IsLeapSecond obsid.toInt) ∧
      (¬ IsLeapSecond obsid.toInt → ∀ u, toInstant (obsid + 1) = .ok u →
        u.second = t.second + 1) := by
  obtain ⟨next, positive⟩ := toInt_succ found
  have stands := standsFor_unixSecond (obsid + 1)
  rw [next] at stands
  rcases (standsFor_of_toInstant found).succ with ⟨leap, same⟩ | ⟨plain, later⟩
  · refine ⟨⟨fun _ => leap, fun _ => ?_⟩, fun plain => absurd leap plain⟩
    exact toInstant_eq_ok_iff.2 ⟨positive, same.unique stands, (toInstant_eq_ok_iff.1 found).2.2⟩
  · refine ⟨⟨fun again => ?_, fun leap => absurd leap plain⟩, fun _ u foundNext => ?_⟩
    · have second := (toInstant_eq_ok_iff.1 again).2.1
      have unique := later.unique stands
      omega
    · rw [(toInstant_eq_ok_iff.1 foundNext).2.1]
      exact stands.unique later

/-- The way there and back leads to the same obsid, or from a leap second to the next one. -/
theorem ofInstant_of_toInstant {t : Instant} (found : toInstant obsid = .ok t) :
    ∃ back, ofInstant t = .ok back ∧ (IsLeapSecond obsid.toInt → back = obsid + 1) ∧
      (¬ IsLeapSecond obsid.toInt → back = obsid) := by
  obtain ⟨positive, -, -⟩ := toInstant_eq_ok_iff.1 found
  have above : 0 < obsid.toInt := Int64.lt_iff_toInt_lt.1 positive
  have stands := standsFor_of_toInstant found
  have late : gpsEpoch < t.second := (gpsSecond_pos_iff t.second).1 (by have := stands.2; omega)
  refine ⟨_, ofInstant_of_lt late, fun leap => ?_, fun plain => ?_⟩
  · rcases stands.gpsSecond_eq with ⟨-, next⟩ | ⟨plain, -⟩
    · refine Int64.toInt.inj ?_
      rw [toInt_ofInt_gpsSecond, (toInt_succ found).1, next]
    · exact absurd leap plain
  · rcases stands.gpsSecond_eq with ⟨leap, -⟩ | ⟨-, same⟩
    · exact absurd leap plain
    · refine Int64.toInt.inj ?_
      rw [toInt_ofInt_gpsSecond, same]

/-- An obsid has an instant exactly when it is positive and the second that it stands for can
be represented. No sum on the way there needs more than 64 bits, once the first one has been
found not to. Obsids in order have their instants in order; two in a row have the same one
where the first is a leap second and are one second apart elsewhere. The obsid of the instant
is the obsid itself, or the next one after a leap second. -/
theorem ofInstant_toInstant (obsid : Int64) :
    ((∃ t, toInstant obsid = .ok t) ↔
      1 ≤ obsid ∧ ∃ second, StandsFor obsid.toInt second ∧
        firstSecond ≤ second ∧ second ≤ lastSecond) ∧
    (∀ fault, toInstant obsid = .error fault → ∃ subject, fault = .outOfRange subject) ∧
    (0 < obsid → uncorrected obsid ≤ Int64.maxValue.toInt →
      Fits (uncorrected obsid) ∧ Fits (gpsLead (uncorrected obsid)) ∧ Fits (firstGuess obsid) ∧
        Fits (gpsLead (firstGuess obsid)) ∧ Fits (unixSecond obsid)) ∧
    ∀ t, toInstant obsid = .ok t →
      (StandsFor obsid.toInt t.second ∧ t.nano = 0) ∧
      (∀ later u, obsid ≤ later → toInstant later = .ok u → t.second ≤ u.second) ∧
      (toInstant (obsid + 1) = .ok t ↔ IsLeapSecond obsid.toInt) ∧
      (¬ IsLeapSecond obsid.toInt → ∀ u, toInstant (obsid + 1) = .ok u →
        u.second = t.second + 1) ∧
      ∃ back, ofInstant t = .ok back ∧ (IsLeapSecond obsid.toInt → back = obsid + 1) ∧
        (¬ IsLeapSecond obsid.toInt → back = obsid) := by
  refine ⟨toInstant_isOk_iff, fun fault failed => ⟨_, toInstant_error failed⟩,
    fun positive small => fits_unixSecond positive small, fun t found => ?_⟩
  obtain ⟨repeats, follows⟩ := toInstant_succ found
  exact ⟨⟨standsFor_of_toInstant found, (toInstant_eq_ok_iff.1 found).2.2⟩,
    fun later u le foundLater => toInstant_mono found foundLater le, repeats, follows,
    ofInstant_of_toInstant found⟩

/-- The leap second before 2017 stands for the first second of that year, whose own obsid is
the next one. -/
theorem ofInstant_toInstant_leap :
    IsLeapSecond (1167264017 : Int64).toInt ∧
      ∃ t : Instant, t.second = 1483228800 ∧ toInstant 1167264017 = .ok t ∧
        toInstant 1167264018 = .ok t ∧ ofInstant t = .ok 1167264018 := by
  let t : Instant := ⟨1483228800, 0, by decide, by decide, by decide, by decide⟩
  have leap : IsLeapSecond (1167264017 : Int64).toInt := ⟨1483228800, by decide, by decide⟩
  have found : toInstant 1167264017 = .ok t :=
    toInstant_eq_ok_iff.2 ⟨by decide, by decide, rfl⟩
  have next : (1167264017 : Int64) + 1 = 1167264018 := by decide
  obtain ⟨-, -, repeats, -, back, named, follows, -⟩ :=
    (ofInstant_toInstant 1167264017).2.2.2 t found
  rw [follows leap, next] at named
  rw [next] at repeats
  exact ⟨leap, t, rfl, found, repeats.2 leap, named⟩

end ObsCatalog.Obsid
