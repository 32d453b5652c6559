import ObsCatalog.Calendar.Interchange

/-! Leap seconds where none is inserted.

An instant can have the fraction of a leap second after any second of a minute. After second 59
it is written as second 60. After another second it cannot be told from the second that follows,
so this is what is read back. Settled instants are those to which this does not happen.
-/

set_option autoImplicit false

namespace ObsCatalog.Calendar

namespace Instant

variable {t : Instant}

theorem second_lt_of_not_isSettled (loose : ¬ t.IsSettled) : t.second + 1 ≤ lastSecond := by
  have last : lastSecond = 8210266876799 := by decide
  have bound := t.le_last
  obtain ⟨-, other⟩ := Classical.not_imp.1 loose
  omega

/-- The instant as it is written: a leap second where none is inserted is the second that
follows. -/
def settled (t : Instant) : Instant :=
  if settled : t.IsSettled then t
  else {
    second := t.second + 1
    nano := t.nano - nanosPerSecond
    first_le := Int.le_trans t.first_le (Int.le_add_of_nonneg_right (by decide))
    le_last := second_lt_of_not_isSettled settled
    nano_lt := Nat.lt_of_le_of_lt (Nat.sub_le _ _) t.nano_lt
    nano_fits := Nat.lt_of_le_of_lt (Nat.sub_le _ _) t.nano_fits }

/-- What a stamp keeps of an instant: the fraction is dropped, and a leap second where none is
inserted is the second that follows. -/
def kept (t : Instant) : Instant :=
  if settled : t.IsSettled then t.wholeSecond
  else {
    second := t.second + 1
    nano := 0
    first_le := Int.le_trans t.first_le (Int.le_add_of_nonneg_right (by decide))
    le_last := second_lt_of_not_isSettled settled
    nano_lt := by decide
    nano_fits := by decide }

theorem settled_eq_self (settled : t.IsSettled) : t.settled = t := dif_pos settled

theorem kept_eq_wholeSecond (settled : t.IsSettled) : t.kept = t.wholeSecond := dif_pos settled

theorem settled_parts (loose : ¬ t.IsSettled) :
    t.settled.second = t.second + 1 ∧ t.settled.nano = t.nano - nanosPerSecond := by
  rw [Instant.settled, dif_neg loose]
  exact ⟨rfl, rfl⟩

theorem kept_parts (loose : ¬ t.IsSettled) : t.kept.second = t.second + 1 ∧ t.kept.nano = 0 := by
  rw [kept, dif_neg loose]
  exact ⟨rfl, rfl⟩

theorem isSettled_of_nano (early : t.nano < nanosPerSecond) : t.IsSettled :=
  fun late => absurd early (Nat.not_lt.2 late)

theorem isSettled_settled (t : Instant) : t.settled.IsSettled := by
  by_cases settled : t.IsSettled
  · rwa [settled_eq_self settled]
  · have bound := t.nano_lt
    refine isSettled_of_nano ?_
    rw [(settled_parts settled).2]
    omega

theorem isSettled_wholeSecond : t.wholeSecond.IsSettled ↔ t.IsSettled :=
  imp_congr_left (isLeap_wholeSecond t)

theorem wholeSecond_settled (t : Instant) : t.settled.wholeSecond = t.kept := by
  by_cases settled : t.IsSettled
  · rw [settled_eq_self settled, kept_eq_wholeSecond settled]
  · have bound := t.nano_lt
    have plain : ¬ t.settled.isLeap := by
      rw [isLeap, (settled_parts settled).2]
      omega
    have second := (settled_parts settled).1.trans (kept_parts settled).1.symm
    have nano : t.settled.wholeSecond.nano = t.kept.nano :=
      (if_neg plain).trans (kept_parts settled).2.symm
    exact Instant.ext second nano

theorem settled_wholeSecond (t : Instant) : t.wholeSecond.settled = t.kept := by
  by_cases settled : t.IsSettled
  · rw [settled_eq_self (isSettled_wholeSecond.2 settled), kept_eq_wholeSecond settled]
  · obtain ⟨late, -⟩ := Classical.not_imp.1 settled
    have whole : t.wholeSecond.nano = nanosPerSecond := if_pos late
    obtain ⟨second, nano⟩ := settled_parts (mt isSettled_wholeSecond.1 settled)
    obtain ⟨next, start⟩ := kept_parts settled
    refine Instant.ext (second.trans next.symm) ?_
    rw [nano, whole, start, Nat.sub_self]

theorem isSettled_kept (t : Instant) : t.kept.IsSettled := by
  rw [← wholeSecond_settled]
  exact isSettled_wholeSecond.2 t.isSettled_settled

@[simp] theorem kept_kept (t : Instant) : t.kept.kept = t.kept := by
  rw [kept_eq_wholeSecond t.isSettled_kept, ← wholeSecond_settled, wholeSecond_wholeSecond]

/-- An instant is cut to the second. A leap second where none is inserted comes to the second
that follows. -/
structure IsCut (t cut : Instant) : Prop where
  settled : t.IsSettled → cut = t.wholeSecond
  loose : ¬ t.IsSettled → cut.second = t.second + 1 ∧ cut.nano = 0

theorem isCut_iff {cut : Instant} : t.IsCut cut ↔ cut = t.kept := by
  constructor
  · rintro ⟨settled, loose⟩
    by_cases known : t.IsSettled
    · rw [settled known, kept_eq_wholeSecond known]
    · obtain ⟨second, nano⟩ := loose known
      obtain ⟨next, whole⟩ := kept_parts known
      exact Instant.ext (second.trans next.symm) (nano.trans whole.symm)
  · rintro rfl
    exact ⟨kept_eq_wholeSecond, kept_parts⟩

theorem isCut_kept (t : Instant) : t.IsCut t.kept := isCut_iff.2 rfl

theorem secondOfDay_settled (loose : ¬ t.IsSettled) :
    t.settled.secondOfDay = t.secondOfDay + 1 ∧ t.secondOfDay % 60 ≠ 59 ∧
      t.settled.second / secondsPerDay = t.second / secondsPerDay := by
  obtain ⟨second, -⟩ := settled_parts loose
  obtain ⟨-, other⟩ := Classical.not_imp.1 loose
  unfold secondOfDay secondsPerDay
  rw [second]
  omega

theorem date_settled (t : Instant) : t.settled.date = t.date := by
  by_cases settled : t.IsSettled
  · rw [settled_eq_self settled]
  · rw [date, date, (secondOfDay_settled settled).2.2]

theorem clockText_settled (t : Instant) : t.settled.clockText = t.clockText := by
  by_cases settled : t.IsSettled
  · rw [settled_eq_self settled]
  · obtain ⟨second, other, -⟩ := secondOfDay_settled settled
    obtain ⟨late, -⟩ := Classical.not_imp.1 settled
    have bound := t.nano_lt
    have hour : t.settled.hour = t.hour := by
      unfold hour
      omega
    have minute : t.settled.minute = t.minute := by
      unfold minute
      omega
    have shown : t.settled.secondOfMinute = t.secondOfMinute := by
      unfold secondOfMinute
      rw [second, (settled_parts settled).2]
      unfold nanosPerSecond at *
      omega
    rw [clockText, clockText, hour, minute, shown]

theorem fractionText_settled (t : Instant) : t.settled.fractionText = t.fractionText := by
  by_cases settled : t.IsSettled
  · rw [settled_eq_self settled]
  · obtain ⟨late, -⟩ := Classical.not_imp.1 settled
    have same : t.settled.fraction = t.fraction := by
      rw [fraction, fraction, (settled_parts settled).2, ← Nat.mod_eq_sub_mod late]
    rw [fractionText, fractionText, same]

end Instant

theorem Stamp.write_settled (t : Instant) : Stamp.write t.settled = Stamp.write t := by
  rw [write, write, t.date_settled, t.clockText_settled]

theorem Interchange.write_settled (t : Instant) :
    Interchange.write t.settled = Interchange.write t := by
  rw [write, write, t.date_settled, t.clockText_settled, t.fractionText_settled]

end ObsCatalog.Calendar
