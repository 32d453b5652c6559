import ObsCatalog.Proofs.Calendar.CivilDate
import ObsCatalog.Proofs.Calendar.Settled

/-! Stamps read back.

What is written for an instant is read as the instant with the fraction of its second
dropped, unless it is a leap second where none is inserted. Whatever is read from a text has
no fraction, so writing it again and reading that loses nothing.
-/

set_option autoImplicit false

namespace ObsCatalog.Calendar

open Text

namespace FieldReader

theorem blanks_padded (width n : Nat) (rest : List Char) :
    blanks (padded width n ++ rest) = .ok ((), padded width n ++ rest) := by
  obtain ⟨c, cs, shape, digit⟩ := isDigit_head_padded width n rest
  have kept : dropBlanks (c :: cs) = c :: cs := by
    simp [dropBlanks, not_isBlank_of_isDigit digit]
  rw [shape]
  show Except.ok ((), dropBlanks (c :: cs)) = _
  rw [kept]

theorem literal_cons (c : Char) (rest : List Char) : literal c (c :: rest) = .ok ((), rest) := by
  simp [literal]

theorem number_padded {limit width n : Nat} {rest : List Char}
    (short : (padded width n).length ≤ limit)
    (ends : (padded width n).length = limit ∨ rest.takeWhile Char.isDigit = []) :
    number limit (padded width n ++ rest) = .ok (n, rest) := by
  have run : takeDigits limit (padded width n ++ rest) = (padded width n, rest) :=
    takeDigits_append (fun _ member => isDigit_of_mem_padded member) short ends
  have value := Text.number_padded width n
  cases shape : padded width n with
  | nil => exact absurd shape (padded_ne_nil width n)
  | cons c cs =>
    rw [shape] at run value
    simp only [number, List.cons_append] at run ⊢
    simp [run, value]

theorem allDigits_padded {width n : Nat} {rest : List Char}
    (ends : rest.takeWhile Char.isDigit = []) :
    allDigits (padded width n ++ rest) = .ok (n, rest) :=
  number_padded (by simp) (.inr ends)

theorem field_padded {low high n : Nat} (atLeast : low ≤ n) (atMost : n ≤ high) (two : n < 100)
    (rest : List Char) : field low high (padded 2 n ++ rest) = .ok (n, rest) := by
  have length : (padded 2 n).length = 2 :=
    length_padded ((Nat.length_toDigits_le_iff (by decide) (by decide)).2 two)
  have digits : number 2 (padded 2 n ++ rest) = .ok (n, rest) :=
    number_padded (Nat.le_of_eq length) (.inl length)
  rw [field, bind_ok (blanks_padded 2 n rest), bind_ok digits, within, if_pos ⟨atLeast, atMost⟩]
  rfl

theorem yearNumber_of_isDigit {c : Char} (digit : c.isDigit) (cs : List Char) :
    yearNumber (c :: cs) = (do let n ← number 4; pure (n : Int) : FieldReader Int) (c :: cs) := by
  have noMinus : c ≠ '-' := by rintro rfl; simp at digit
  have noPlus : c ≠ '+' := by rintro rfl; simp at digit
  unfold yearNumber
  split
  · next same => exact absurd (List.cons.inj same).1 noMinus
  · next same => exact absurd (List.cons.inj same).1 noPlus
  · rfl

theorem yearNumber_yearText (year : Int) {rest : List Char}
    (ends : rest.takeWhile Char.isDigit = []) :
    yearNumber (yearText year ++ rest) = .ok (year, rest) := by
  unfold yearText
  -- A year of four digits has no sign; with a sign all digits that follow are read.
  split_ifs with plain negative
  · have length : (padded 4 year.toNat).length = 4 :=
      length_padded ((Nat.length_toDigits_le_iff (by decide) (by decide)).2 (by omega))
    have digits : number 4 (padded 4 year.toNat ++ rest) = .ok (year.toNat, rest) :=
      number_padded (Nat.le_of_eq length) (.inl length)
    have value : (year.toNat : Int) = year := by omega
    obtain ⟨c, cs, shape, digit⟩ := isDigit_head_padded 4 year.toNat rest
    rw [shape] at digits ⊢
    rw [yearNumber_of_isDigit digit, bind_ok digits, value]
    rfl
  · have value : -(year.natAbs : Int) = year := by omega
    show (allDigits >>= _) (padded 4 year.natAbs ++ rest) = _
    rw [bind_ok (allDigits_padded ends), value]
    rfl
  · have value : (year.toNat : Int) = year := by omega
    show (allDigits >>= _) (padded 4 year.toNat ++ rest) = _
    rw [bind_ok (allDigits_padded ends), value]
    rfl

theorem blanks_yearText (year : Int) (rest : List Char) :
    blanks (yearText year ++ rest) = .ok ((), yearText year ++ rest) := by
  unfold yearText
  split_ifs
  · exact blanks_padded 4 year.toNat rest
  · rfl
  · rfl

theorem year_yearText {year : Int} (atLeast : -2147483648 ≤ year) (atMost : year ≤ 2147483647)
    {rest : List Char} (ends : rest.takeWhile Char.isDigit = []) :
    FieldReader.year (yearText year ++ rest) = .ok (year, rest) := by
  rw [FieldReader.year, bind_ok (blanks_yearText year rest),
    bind_ok (yearNumber_yearText year ends), if_pos ⟨atLeast, atMost⟩]
  rfl

end FieldReader

namespace Instant

variable {t : Instant}

def shown (t : Instant) : Fields := ⟨t.date, t.hour, t.minute, t.secondOfMinute, 0⟩

theorem wholeSecond_eq_self (t : Instant) (whole : t.nano = 0 ∨ t.nano = nanosPerSecond) :
    t.wholeSecond = t := by
  have kept : (if t.isLeap then nanosPerSecond else 0) = t.nano := by
    rcases whole with start | leap
    · have plain : ¬ t.isLeap := by simp [isLeap, start, nanosPerSecond]
      rw [if_neg plain, start]
    · have leapSecond : t.isLeap := by simp [isLeap, leap]
      rw [if_pos leapSecond, leap]
  simp only [wholeSecond, kept]

theorem secondOfDay_lt (t : Instant) : t.secondOfDay < 86400 := by
  unfold secondOfDay secondsPerDay
  omega

theorem hour_lt (t : Instant) : t.hour < 24 := by
  have day := t.secondOfDay_lt
  unfold hour
  omega

theorem minute_lt (t : Instant) : t.minute < 60 := by
  unfold minute
  omega

theorem secondOfMinute_le (t : Instant) : t.secondOfMinute ≤ 60 := by
  have bound := t.nano_lt
  unfold secondOfMinute
  unfold nanosPerSecond at *
  omega

theorem IsSettled.secondOfMinute_eq_sixty (settled : t.IsSettled) :
    t.secondOfMinute = 60 ↔ t.isLeap := by
  have bound := t.nano_lt
  unfold IsSettled at settled
  unfold secondOfMinute isLeap secondOfDay secondsPerDay
  unfold nanosPerSecond at *
  omega

theorem valid_date (t : Instant) : t.date.Valid := CivilDate.valid_ofDayNumber _

theorem year_bounds (t : Instant) : -262143 ≤ t.date.year ∧ t.date.year ≤ 262142 := by
  have lower := t.first_le
  have upper := t.le_last
  have first : firstSecond = CivilDate.dayNumber ⟨-262143, 1, 1⟩ * 86400 := rfl
  have last : lastSecond + 1 = CivilDate.dayNumber ⟨262142 + 1, 1, 1⟩ * 86400 := by decide
  refine CivilDate.year_ofDayNumber_bounds ?_ ?_
  · unfold secondsPerDay
    omega
  · unfold secondsPerDay
    omega

theorem IsSettled.unixSecond_shown (settled : t.IsSettled) : t.shown.unixSecond = t.second := by
  have day : t.date.dayNumber = t.second / 86400 := CivilDate.dayNumber_ofDayNumber _
  have bound := t.nano_lt
  unfold IsSettled at settled
  show t.date.dayNumber * 86400 +
    (t.hour * 3600 + t.minute * 60 + min t.secondOfMinute 59 : Nat) = t.second
  rw [day]
  unfold hour minute secondOfMinute secondOfDay secondsPerDay
  unfold nanosPerSecond at *
  omega

theorem IsSettled.leapNano_shown (settled : t.IsSettled) :
    t.shown.leapNano = t.wholeSecond.nano := by
  show (if t.secondOfMinute = 60 then nanosPerSecond + 0 else 0) =
    if t.isLeap then nanosPerSecond else 0
  simp [settled.secondOfMinute_eq_sixty]

/-- The fields that a stamp shows name the instant up to its fraction. -/
theorem IsSettled.instant_shown (settled : t.IsSettled) :
    t.shown.instant 0 = .ok t.wholeSecond := by
  have named := ofParts?_parts (isSettled_wholeSecond.2 settled)
  have valid : t.shown.date.Valid := t.valid_date
  rw [Fields.instant, if_pos ⟨valid, t.year_bounds⟩, settled.unixSecond_shown,
    settled.leapNano_shown, Int.sub_zero, ← second_wholeSecond t, named]

end Instant

namespace Fields

variable {f : Fields} {offset : Int} {t : Instant}

theorem ofParts?_of_instant (named : f.instant offset = .ok t) :
    Instant.ofParts? (f.unixSecond - offset) f.leapNano = some t := by
  unfold instant at named
  split at named
  · split at named
    · next found =>
      cases named
      exact found
    · cases named
  · cases named

theorem nano_of_instant (whole : f.nano = 0) (named : f.instant offset = .ok t) :
    t.nano = 0 ∨ t.nano = nanosPerSecond := by
  rw [(Instant.parts_of_ofParts? (ofParts?_of_instant named)).2, leapNano, whole]
  split
  · exact .inr rfl
  · exact .inl rfl

theorem isSettled_of_instant (named : f.instant offset = .ok t) : t.IsSettled :=
  Instant.isSettled_of_ofParts? (ofParts?_of_instant named)

end Fields

namespace Stamp

theorem fields_write (t : Instant) :
    fields (write t).toList = .ok (t.shown, []) := by
  have years := t.year_bounds
  obtain ⟨firstMonth, lastMonth, firstDay, lastDay⟩ := t.valid_date
  have longest := CivilDate.daysInMonth_le t.date.year t.date.month
  have hours := t.hour_lt
  have minutes := t.minute_lt
  have seconds := t.secondOfMinute_le
  have text : (write t).toList = yearText t.date.year ++ '-' :: (padded 2 t.date.month ++
      '-' :: (padded 2 t.date.day ++ ' ' :: (padded 2 t.hour ++ ':' :: (padded 2 t.minute ++
      ':' :: (padded 2 t.secondOfMinute ++ []))))) := by
    simp [write, CivilDate.text, Instant.clockText]
  have blank (rest : List Char) :
      FieldReader.blanks (' ' :: (padded 2 t.hour ++ rest)) = .ok ((), padded 2 t.hour ++ rest) :=
    FieldReader.blanks_padded 2 t.hour rest
  -- Each part of the text is what one reader takes and leaves the rest for the next.
  rw [text, fields, FieldReader.bind_ok (FieldReader.year_yearText (by omega) (by omega) (by rfl)),
    FieldReader.bind_ok (FieldReader.literal_cons _ _),
    FieldReader.bind_ok (FieldReader.field_padded firstMonth lastMonth (by omega) _),
    FieldReader.bind_ok (FieldReader.literal_cons _ _),
    FieldReader.bind_ok (FieldReader.field_padded firstDay (by omega) (by omega) _),
    FieldReader.bind_ok (blank _),
    FieldReader.bind_ok (FieldReader.field_padded (by omega) (by omega) (by omega) _),
    FieldReader.bind_ok (FieldReader.literal_cons _ _),
    FieldReader.bind_ok (FieldReader.field_padded (by omega) (by omega) (by omega) _),
    FieldReader.bind_ok (FieldReader.literal_cons _ _),
    FieldReader.bind_ok (FieldReader.field_padded (by omega) (by omega) (by omega) _)]
  rfl

theorem read_write (t : Instant) : read (write t) = .ok t.kept := by
  rw [← write_settled, read, fields_write, ← t.wholeSecond_settled]
  exact t.isSettled_settled.instant_shown

@[simp] theorem write_wholeSecond (t : Instant) : write t.wholeSecond = write t := by
  have shown : t.wholeSecond.secondOfMinute = t.secondOfMinute := by
    have bound := t.nano_lt
    unfold Instant.secondOfMinute
    congr 1
    show (if t.isLeap then nanosPerSecond else 0) / nanosPerSecond = t.nano / nanosPerSecond
    by_cases leap : t.isLeap
    · have late : nanosPerSecond ≤ t.nano := leap
      rw [if_pos leap]
      unfold nanosPerSecond at *
      omega
    · have early : ¬ nanosPerSecond ≤ t.nano := leap
      rw [if_neg leap]
      unfold nanosPerSecond at *
      omega
  unfold write Instant.clockText
  rw [shown]
  rfl

@[simp] theorem write_kept (t : Instant) : write t.kept = write t := by
  rw [← t.wholeSecond_settled, write_wholeSecond, write_settled]

theorem head?_write_of_neg {t : Instant} (negative : t.date.year < 0) :
    (write t).toList.head? = some '-' := by
  have unsigned : ¬ (0 ≤ t.date.year ∧ t.date.year ≤ 9999) := by omega
  simp [write, CivilDate.text, yearText, unsigned, negative]

theorem head?_write_of_large {t : Instant} (large : 9999 < t.date.year) :
    (write t).toList.head? = some '+' := by
  have unsigned : ¬ (0 ≤ t.date.year ∧ t.date.year ≤ 9999) := by omega
  have positive : ¬ t.date.year < 0 := by omega
  simp [write, CivilDate.text, yearText, unsigned, positive]

theorem sixty_of_isLeap {t : Instant} (settled : t.IsSettled) (leap : t.isLeap) :
    ['6', '0'] <:+ (write t).toList := by
  have sixty : padded 2 t.secondOfMinute = ['6', '0'] := by
    rw [settled.secondOfMinute_eq_sixty.2 leap]
    decide
  refine ⟨t.date.text ++ ' ' :: (padded 2 t.hour ++ ':' :: (padded 2 t.minute ++ [':'])), ?_⟩
  simp [write, Instant.clockText, sixty]

theorem nano_of_fields {cs rest : List Char} {f : Fields} (found : fields cs = .ok (f, rest)) :
    f.nano = 0 := by
  unfold fields at found
  -- The fields that are read leave the fraction at zero, whatever they are.
  obtain ⟨_, _, _, found⟩ := FieldReader.bind_eq_ok found
  obtain ⟨_, _, _, found⟩ := FieldReader.bind_eq_ok found
  obtain ⟨_, _, _, found⟩ := FieldReader.bind_eq_ok found
  obtain ⟨_, _, _, found⟩ := FieldReader.bind_eq_ok found
  obtain ⟨_, _, _, found⟩ := FieldReader.bind_eq_ok found
  obtain ⟨_, _, _, found⟩ := FieldReader.bind_eq_ok found
  obtain ⟨_, _, _, found⟩ := FieldReader.bind_eq_ok found
  obtain ⟨_, _, _, found⟩ := FieldReader.bind_eq_ok found
  obtain ⟨_, _, _, found⟩ := FieldReader.bind_eq_ok found
  obtain ⟨_, _, _, found⟩ := FieldReader.bind_eq_ok found
  obtain ⟨_, _, _, found⟩ := FieldReader.bind_eq_ok found
  cases found
  rfl

theorem kept_of_read {text : String} {t : Instant} (found : read text = .ok t) :
    t.kept = t := by
  unfold read at found
  cases shown : fields text.toList with
  | error fault => rw [shown] at found; cases found
  | ok pair =>
    obtain ⟨f, rest⟩ := pair
    rw [shown] at found
    change (if rest.isEmpty then f.instant 0 else throw .trailing) = .ok t at found
    split at found
    · rw [t.kept_eq_wholeSecond (Fields.isSettled_of_instant found)]
      exact t.wholeSecond_eq_self (Fields.nano_of_instant (nano_of_fields shown) found)
    · cases found

/-- Stamps keep an instant to the second, over the whole range of years. Years outside of
0 to 9999 carry a sign and a leap second is second 60. This asks of a leap second that it
stands where leap seconds are inserted, after second 59; after any other second it is read as
the second that follows. Reading a text, writing what has been read and reading that comes to
the same as reading the text alone. -/
theorem stamp_round_trip :
    (∀ t : Instant,
      (t.IsSettled → read (write t) = .ok t.wholeSecond ∧
        (t.isLeap → ['6', '0'] <:+ (write t).toList)) ∧
      (¬ t.IsSettled → ∃ next, read (write t) = .ok next ∧ next.second = t.second + 1 ∧
        next.nano = 0) ∧
      (t.date.year < 0 → (write t).toList.head? = some '-') ∧
      (9999 < t.date.year → (write t).toList.head? = some '+')) ∧
    ∀ (text : String) (t : Instant), read text = .ok t → read (write t) = .ok t := by
  constructor
  · intro t
    refine ⟨fun settled => ⟨?_, sixty_of_isLeap settled⟩, fun loose => ?_, head?_write_of_neg,
      head?_write_of_large⟩
    · rw [read_write, t.kept_eq_wholeSecond settled]
    · exact ⟨t.kept, read_write t, Instant.kept_parts loose⟩
  · intro text t found
    rw [read_write, kept_of_read found]

/-- The leap second before 2017: the instant, one within it, and a text that is not in written
form. With the fraction of a leap second 1970-01-01 00:00:00 is read back as the second after. -/
theorem stamp_round_trip_lenient :
    ∃ t within loose next : Instant, t.isLeap ∧ within.nano = 1500000000 ∧
      read (write within) = .ok t ∧
      read " 2016-12- 31   23:59:60" = .ok t ∧ read (write t) = .ok t ∧
      loose.nano = 1500000000 ∧ read (write loose) = .ok next ∧ next.second = 1 := by
  have found : read " 2016-12- 31   23:59:60" =
      .ok ⟨1483228799, nanosPerSecond, by decide, by decide, by decide, by decide⟩ := by rfl
  let within : Instant := ⟨1483228799, 1500000000, by decide, by decide, by decide, by decide⟩
  let loose : Instant := ⟨0, 1500000000, by decide, by decide, by decide, by decide⟩
  obtain ⟨again, -⟩ := (stamp_round_trip.1 within).1 (by decide)
  obtain ⟨next, other, second, -⟩ := (stamp_round_trip.1 loose).2.1 (by decide)
  exact ⟨_, within, loose, next, by decide, rfl, again, found, stamp_round_trip.2 _ _ found, rfl,
    other, second⟩

end Stamp

end ObsCatalog.Calendar
