import ObsCatalog.Calendar.Interchange
import ObsCatalog.Proofs.Calendar.Stamp

/-! Instants in interchange form read back.

Unlike a stamp, the written form keeps the fraction of the second, so it is read as the
instant itself, but for leap seconds where none are inserted.
-/

set_option autoImplicit false

namespace ObsCatalog.Calendar

open Text

namespace Instant

def shownInFull (t : Instant) : Fields := { t.shown with nano := t.fraction }

theorem IsSettled.leapNano_shownInFull {t : Instant} (settled : t.IsSettled) :
    t.shownInFull.leapNano = t.nano := by
  have bound := t.nano_lt
  show (if t.secondOfMinute = 60 then nanosPerSecond + t.fraction else t.fraction) = t.nano
  by_cases leap : t.isLeap
  · have late : nanosPerSecond ≤ t.nano := leap
    rw [if_pos (settled.secondOfMinute_eq_sixty.2 leap), fraction]
    unfold nanosPerSecond at *
    omega
  · have early : ¬ nanosPerSecond ≤ t.nano := leap
    rw [if_neg (mt settled.secondOfMinute_eq_sixty.1 leap), fraction]
    unfold nanosPerSecond at *
    omega

theorem IsSettled.instant_shownInFull {t : Instant} (settled : t.IsSettled) :
    t.shownInFull.instant 0 = .ok t := by
  have same : t.shownInFull.unixSecond = t.second := settled.unixSecond_shown
  rw [Fields.instant, if_pos ⟨t.valid_date, t.year_bounds⟩, same, settled.leapNano_shownInFull,
    Int.sub_zero, ofParts?_parts settled]

end Instant

namespace FieldReader

theorem blanks_cons {c : Char} (solid : isBlank c = false) (rest : List Char) :
    blanks (c :: rest) = .ok ((), c :: rest) := by
  have kept : dropBlanks (c :: rest) = c :: rest := by simp [dropBlanks, solid]
  show Except.ok ((), dropBlanks (c :: rest)) = _
  rw [kept]

end FieldReader

namespace Interchange

theorem fraction_padded {width n : Nat} (short : width ≤ 9) (fits : (padded width n).length = width)
    (rest : List Char) (ends : rest.takeWhile Char.isDigit = []) :
    fraction ('.' :: (padded width n ++ rest)) = .ok (n * Nat.pow 10 (9 - width), rest) := by
  have digits : FieldReader.number 9 (padded width n ++ rest) = .ok (n, rest) :=
    FieldReader.number_padded (by omega) (.inr ends)
  have kept : rest.dropWhile Char.isDigit = rest := by
    have whole := List.takeWhile_append_dropWhile (p := Char.isDigit) (l := rest)
    rwa [ends, List.nil_append] at whole
  have used : (padded width n ++ rest).length - rest.length = width := by
    rw [List.length_append, fits]
    omega
  show (get >>= fun before => FieldReader.number 9 >>= _ : FieldReader Nat) _ = _
  rw [FieldReader.bind_ok rfl, FieldReader.bind_ok digits]
  show Except.ok (n * Nat.pow 10 (9 - ((padded width n ++ rest).length - rest.length)),
    rest.dropWhile Char.isDigit) = _
  rw [used, kept]

theorem length_padded_of_lt {width n : Nat} (positive : 0 < width) (small : n < Nat.pow 10 width) :
    (padded width n).length = width :=
  length_padded ((Nat.length_toDigits_le_iff (by decide) positive).2 small)

theorem fraction_fractionText (t : Instant) :
    fraction (t.fractionText ++ ['Z']) = .ok (t.fraction, ['Z']) := by
  have bound : t.fraction < 1000000000 := Nat.mod_lt _ (by decide)
  have ends : (['Z'] : List Char).takeWhile Char.isDigit = [] := by decide
  unfold Instant.fractionText
  simp only
  -- Of the fraction only as many digits are written as it needs: none, three, six or nine.
  split_ifs with none millis micros
  · rw [none]
    rfl
  · have value : t.fraction / 1000000 * Nat.pow 10 (9 - 3) = t.fraction := by
      show t.fraction / 1000000 * 1000000 = t.fraction
      omega
    rw [List.cons_append, fraction_padded (by decide)
      (length_padded_of_lt (by decide) (Nat.div_lt_of_lt_mul bound)) _ ends, value]
  · have value : t.fraction / 1000 * Nat.pow 10 (9 - 6) = t.fraction := by
      show t.fraction / 1000 * 1000 = t.fraction
      omega
    rw [List.cons_append, fraction_padded (by decide)
      (length_padded_of_lt (by decide) (Nat.div_lt_of_lt_mul bound)) _ ends, value]
  · rw [List.cons_append, fraction_padded (by decide)
      (length_padded_of_lt (by decide) (by omega)) _ ends]
    exact congrArg (fun n => Except.ok (n, ['Z'])) (Nat.mul_one t.fraction)

theorem fields_write (t : Instant) :
    fields (write t).toList = .ok ((t.shownInFull, 0), []) := by
  have years := t.year_bounds
  obtain ⟨firstMonth, lastMonth, firstDay, lastDay⟩ := t.valid_date
  have longest := CivilDate.daysInMonth_le t.date.year t.date.month
  have hours := t.hour_lt
  have minutes := t.minute_lt
  have seconds := t.secondOfMinute_le
  have text : (write t).toList = yearText t.date.year ++ '-' :: (padded 2 t.date.month ++
      '-' :: (padded 2 t.date.day ++ 'T' :: (padded 2 t.hour ++ ':' :: (padded 2 t.minute ++
      ':' :: (padded 2 t.secondOfMinute ++ (t.fractionText ++ ['Z'])))))) := by
    simp [write, CivilDate.text, Instant.clockText]
  have separated (rest : List Char) : separator ('T' :: rest) = .ok ((), rest) := rfl
  -- As with stamps, but with gaps allowed before the marks and the fraction at the end.
  rw [text, fields, FieldReader.bind_ok (FieldReader.year_yearText (by omega) (by omega) (by rfl)),
    FieldReader.bind_ok (FieldReader.blanks_cons (by decide) _),
    FieldReader.bind_ok (FieldReader.literal_cons _ _),
    FieldReader.bind_ok (FieldReader.field_padded firstMonth lastMonth (by omega) _),
    FieldReader.bind_ok (FieldReader.blanks_cons (by decide) _),
    FieldReader.bind_ok (FieldReader.literal_cons _ _),
    FieldReader.bind_ok (FieldReader.field_padded firstDay (by omega) (by omega) _),
    FieldReader.bind_ok (separated _),
    FieldReader.bind_ok (FieldReader.field_padded (by omega) (by omega) (by omega) _),
    FieldReader.bind_ok (FieldReader.blanks_cons (by decide) _),
    FieldReader.bind_ok (FieldReader.literal_cons _ _),
    FieldReader.bind_ok (FieldReader.field_padded (by omega) (by omega) (by omega) _),
    FieldReader.bind_ok (FieldReader.blanks_cons (by decide) _),
    FieldReader.bind_ok (FieldReader.literal_cons _ _),
    FieldReader.bind_ok (FieldReader.field_padded (by omega) (by omega) (by omega) _),
    FieldReader.bind_ok (fraction_fractionText t),
    FieldReader.bind_ok (FieldReader.blanks_cons (by decide) _)]
  rfl

/-- The interchange form loses nothing of an instant. -/
theorem read_write (t : Instant) : read (write t) = .ok t.settled := by
  rw [← write_settled, read, fields_write]
  exact t.isSettled_settled.instant_shownInFull

end Interchange

end ObsCatalog.Calendar
