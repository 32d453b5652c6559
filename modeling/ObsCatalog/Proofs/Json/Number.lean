import ObsCatalog.Json.Typed
import ObsCatalog.Proofs.Json.Reading
import ObsCatalog.Proofs.Json.Shape
import ObsCatalog.Proofs.Text.Digits

/-! Integers read from their digits. -/

set_option autoImplicit false

namespace ObsCatalog.Json

open Text

theorem isWhole_digits (n : Nat) : IsWhole (digits n) := by
  rcases Nat.eq_zero_or_pos n with rfl | positive
  · exact .zero
  · have leading := head?_digits positive
    obtain ⟨c, cs, shape, decimal⟩ := digits_eq_cons n
    rw [shape] at leading ⊢
    exact .digits decimal fun zero => leading (congrArg some zero)

theorem accumulate_of_lt {start : Nat} {cs : List Char}
    (fits : Nat.ofDigitChars 10 cs start < wordLimit) :
    accumulate start cs = (Nat.ofDigitChars 10 cs start, []) := by
  induction cs generalizing start with
  | nil => rfl
  | cons c rest ih =>
    rw [Nat.ofDigitChars_cons] at fits ⊢
    have grows : 10 * start + (c.toNat - '0'.toNat) ≤
        Nat.ofDigitChars 10 rest (10 * start + (c.toNat - '0'.toNat)) := by
      rw [Nat.ofDigitChars_eq_ofDigitChars_zero]
      have := Nat.le_mul_of_pos_left (10 * start + (c.toNat - '0'.toNat))
        (Nat.pow_pos (n := rest.length) (show 0 < 10 by decide))
      omega
    have first : 10 * start + (c.toNat - 48) < wordLimit := Nat.lt_of_le_of_lt grows fits
    rw [accumulate, if_pos first]
    exact ih fits

namespace Reader

theorem Ends.not_number {rest : List Symbol} (ends : Ends rest) {c : Char}
    (first : rest.head? = some (.char c)) :
    c.isDigit = false ∧ c ≠ '.' ∧ c ≠ 'e' ∧ c ≠ 'E' := by
  have kinds : (((c = ' ' ∨ c = '\n') ∨ c = '\t') ∨ c = '\r') ∨ c = ',' ∨ c = '}' ∨ c = ']' := by
    simpa [isBlank] using ends _ first
  rcases kinds with (((rfl | rfl) | rfl) | rfl) | rfl | rfl | rfl <;> decide

theorem startsExponent_of_ends {rest : List Symbol} (ends : Ends rest) :
    startsExponent rest.head? = false := by
  simp only [startsExponent, Bool.or_eq_false_iff, decide_eq_false_iff_not]
  exact ⟨fun first => (ends.not_number first).2.2.1 rfl,
    fun first => (ends.not_number first).2.2.2 rfl⟩

def Symbol.isDigit : Symbol → Bool
  | .char c => c.isDigit
  | .stray _ => false

def NoDigit (rest : List Symbol) : Prop :=
  ∀ c, rest.head? = some (.char c) → c.isDigit = false

theorem Ends.noDigit {rest : List Symbol} (ends : Ends rest) : NoDigit rest := by
  intro c first
  exact (ends.not_number first).1

theorem digitRun_chars {cs : List Char} (decimal : ∀ c ∈ cs, c.isDigit) {rest : List Symbol}
    (stops : NoDigit rest) (p : Bool) :
    digitRun ⟨chars cs rest, p⟩ = .ok (cs, ⟨rest, !rest.isEmpty⟩) := by
  have stop : rest.takeWhile Symbol.isDigit = [] := by
    cases rest with
    | nil => rfl
    | cons s more =>
      cases s with
      | char c =>
        have other := stops c rfl
        exact List.takeWhile_cons_of_neg (by simp [Symbol.isDigit, other])
      | stray bytes => rfl
  have run : (chars cs rest).takeWhile Symbol.isDigit = cs.map .char := by
    rw [chars, List.takeWhile_append_of_pos, stop, List.append_nil]
    intro s member
    obtain ⟨c, listed, rfl⟩ := List.mem_map.1 member
    exact decimal c listed
  have dropped : (chars cs rest).drop cs.length = rest := by simp [chars]
  have values : (cs.map Symbol.char).filterMap Symbol.char? = cs := by
    simp [List.filterMap_map, Function.comp_def, Symbol.char?]
  show Except.ok (((chars cs rest).takeWhile Symbol.isDigit).filterMap Symbol.char?,
    Cursor.mk ((chars cs rest).drop ((chars cs rest).takeWhile Symbol.isDigit).length)
      (!((chars cs rest).drop ((chars cs rest).takeWhile Symbol.isDigit).length).isEmpty)) = _
  rw [run, List.length_map, dropped, values]

theorem afterWhole_ends (negative : Bool) {n : Nat} (representable : negative = true →
    n ≠ 0 ∧ n ≤ Nat.pow 2 63) {rest : List Symbol} (ends : Ends rest) (p : Bool) :
    afterWhole negative n 0 ⟨rest, p⟩ =
      .ok (.integer (if negative then -(n : Int) else n), ⟨rest, !rest.isEmpty⟩) := by
  have noPoint : rest.head? ≠ some (.char '.') := by
    intro first
    exact (ends.not_number first).2.1 rfl
  have noExponent := startsExponent_of_ends ends
  rw [afterWhole, bind_ok rfl, if_neg noPoint, if_neg (by simp [noExponent]), if_neg (by simp)]
  cases negative with
  | false => rfl
  | true =>
    obtain ⟨positive, fits⟩ := representable rfl
    rw [if_pos rfl, if_neg (by omega)]
    rfl

theorem unsigned_of_ne_zero (negative : Bool) {c : Char} (other : c ≠ '0') (more : List Symbol)
    (p : Bool) : unsigned negative ⟨.char c :: more, p⟩ =
      (do
        let run ← digitRun
        if run.isEmpty then failHere (.malformed .badNumber)
        else
          let (significand, unused) := accumulate 0 run
          afterWhole negative significand unused.length : Reader Number)
        ⟨.char c :: more, true⟩ := by
  rw [unsigned, bind_ok rfl]
  simp [other]

/-- The whole part of a number, which must fit a word, is read as its value. -/
theorem unsigned_whole (negative : Bool) {whole : List Char} (hw : IsWhole whole)
    (fits : Text.number whole < wordLimit) {more : List Symbol} (stops : NoDigit more) (p : Bool) :
    unsigned negative ⟨chars whole more, p⟩ =
      afterWhole negative (Text.number whole) 0 ⟨more, !more.isEmpty⟩ := by
  cases hw with
  | zero =>
    rw [unsigned, bind_ok rfl]
    show (advance >>= fun _ => peek >>= _) _ = _
    rw [chars_cons, chars_nil, bind_ok (advance_cons _ _ _), bind_ok rfl]
    cases more with
    | nil => rfl
    | cons s more =>
      cases s with
      | char c =>
        have other := stops c rfl
        simp only [List.head?_cons, other]
        rfl
      | stray bytes => rfl
  | @digits c cs decimal leading =>
    have value : accumulate 0 (c :: cs) = (Text.number (c :: cs), []) := accumulate_of_lt fits
    rw [chars_cons, unsigned_of_ne_zero negative leading, ← chars_cons,
      bind_ok (digitRun_chars decimal stops _), if_neg (by simp), value]
    rfl

/-- The digits of a number are read as this number, which must fit a word. -/
theorem unsigned_digits (negative : Bool) {n : Nat} (fits : n < wordLimit) (representable :
    negative = true → n ≠ 0 ∧ n ≤ Nat.pow 2 63) {rest : List Symbol} (ends : Ends rest)
    (p : Bool) : unsigned negative ⟨chars (digits n) rest, p⟩ =
      .ok (.integer (if negative then -(n : Int) else n), ⟨rest, !rest.isEmpty⟩) := by
  have word : Text.number (digits n) < wordLimit := by rwa [number_digits]
  rw [unsigned_whole negative (isWhole_digits n) word ends.noDigit, number_digits]
  exact afterWhole_ends negative representable ends _

theorem integerChars_neg {i : Int} (negative : i < 0) :
    integerChars i = '-' :: digits i.natAbs := by
  cases i with
  | ofNat n => exact absurd negative (by simp)
  | negSucc n => rfl

theorem integerChars_nonneg {i : Int} (nonneg : 0 ≤ i) : integerChars i = digits i.natAbs := by
  cases i with
  | ofNat n => rfl
  | negSucc n => exact absurd nonneg (by simp)

theorem startsNumber_integerChars (i : Int) :
    ∃ c cs, integerChars i = c :: cs ∧ startsNumber (.char c) = true := by
  rcases Int.lt_or_le i 0 with negative | nonneg
  · exact ⟨'-', _, integerChars_neg negative, by decide⟩
  · rw [integerChars_nonneg nonneg]
    cases shape : digits i.natAbs with
    | nil => simp [digits] at shape
    | cons c cs =>
      have digit : c.isDigit := isDigit_of_mem_digits (n := i.natAbs) (by simp [shape])
      exact ⟨c, cs, rfl, by simp [startsNumber, digit]⟩

theorem anyNumber_integer {i : Int} (low : -(2 : Int) ^ 63 ≤ i) (high : i < (2 : Int) ^ 64)
    {rest : List Symbol} (ends : Ends rest) (p : Bool) :
    anyNumber ⟨chars (integerChars i) rest, p⟩ = .ok (.integer i, ⟨rest, !rest.isEmpty⟩) := by
  have limit : wordLimit = 2 ^ 64 := rfl
  have bound : Nat.pow 2 63 = 2 ^ 63 := rfl
  rcases Int.lt_or_le i 0 with negative | nonneg
  · have value : -(i.natAbs : Int) = i := by omega
    rw [integerChars_neg negative, anyNumber, bind_ok rfl]
    show (advance >>= fun _ => unsigned true) _ = _
    rw [chars_cons, bind_ok (advance_cons _ _ _),
      unsigned_digits true (by omega) (fun _ => by omega) ends, if_pos rfl, value]
  · have value : (i.natAbs : Int) = i := by omega
    have read := unsigned_digits false (n := i.natAbs) (by omega) (by simp) ends
      (!(chars (digits i.natAbs) rest).isEmpty)
    rw [integerChars_nonneg nonneg, anyNumber, bind_ok rfl]
    have unsignedHead : (chars (digits i.natAbs) rest).head? ≠ some (.char '-') := by
      cases shape : digits i.natAbs with
      | nil => simp [digits] at shape
      | cons c cs =>
        have digit : c.isDigit := isDigit_of_mem_digits (n := i.natAbs) (by simp [shape])
        rintro same
        cases same
        cases digit
    rw [if_neg unsignedHead, read, value]
    rfl

theorem number_gap (expected : String) {gap : List Char} (blank : IsGap gap) {c : Char}
    (starts : startsNumber (.char c) = true) (more : List Symbol) (p : Bool) :
    number expected ⟨chars gap (.char c :: more), p⟩ = anyNumber ⟨.char c :: more, true⟩ := by
  have solid : isBlank (.char c) = false := by
    have kinds : c = '-' ∨ c.isDigit = true := by simpa [startsNumber] using starts
    rcases kinds with rfl | digit
    · decide
    · simp only [isBlank, Bool.or_eq_false_iff, decide_eq_false_iff_not]
      refine ⟨⟨⟨?_, ?_⟩, ?_⟩, ?_⟩ <;> (rintro rfl; cases digit)
  rw [number, bind_ok (valueStart_gap blank solid _ p), if_pos starts]

theorem int64_accepts (n : Int64) : Accepts int64 (.integer n.toInt) n := by
  intro gap cs blank spelled p rest ends
  cases spelled
  have low := n.minValue_le_toInt
  have high := n.toInt_le
  have least : Int64.minValue.toInt = -2 ^ 63 := by decide
  have greatest : Int64.maxValue.toInt = 2 ^ 63 - 1 := by decide
  obtain ⟨c, rest', shape, starts⟩ := startsNumber_integerChars n.toInt
  have read : number "i64" ⟨chars gap (chars (integerChars n.toInt) rest), p⟩ =
      .ok (.integer n.toInt, ⟨rest, !rest.isEmpty⟩) := by
    have whole := anyNumber_integer (i := n.toInt) (by omega) (by omega) ends true
    rw [shape, chars_cons] at whole ⊢
    rw [number_gap "i64" blank starts, whole]
  refine ⟨!rest.isEmpty, ?_⟩
  rw [chars_append, int64, bind_ok read]
  show (if _ then pure (Int64.ofInt n.toInt) else _ : Reader Int64) _ = _
  rw [if_pos ⟨low, high⟩, Int64.ofInt_toInt]
  rfl

end Reader

end ObsCatalog.Json
