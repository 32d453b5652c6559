import ObsCatalog.Proofs.Json.Scalar
import ObsCatalog.Proofs.Json.Scaling

/-! Reals read from their digits.

A real is written with a fraction or with an exponent. The digits of a fraction that is not
followed by an exponent count below one, so the number cannot be too large. With an exponent all
digits are counted, and what is read is the coefficient of the shortest decimal.
-/

set_option autoImplicit false

namespace ObsCatalog.Json

open Text

theorem length_accumulate (start : Nat) (cs : List Char) :
    (accumulate start cs).2.length ≤ cs.length := by
  induction cs generalizing start with
  | nil => exact Nat.le_refl _
  | cons c cs ih =>
    rw [accumulate]
    split
    · exact Nat.le_succ_of_le (ih _)
    · exact Nat.le_refl _

theorem isDigits_zero : IsDigits ['0'] := .digits fun _ member => List.mem_singleton.1 member ▸ rfl

theorem isDigits_of_mem {cs : List Char} (some : cs ≠ []) (decimal : ∀ d ∈ cs, d.isDigit) :
    IsDigits cs := by
  cases cs with
  | nil => exact absurd rfl some
  | cons c cs => exact .digits decimal

theorem isDigit_of_mem_filled {n count : Nat} {c : Char}
    (member : c ∈ digits n ++ List.replicate count '0') : c.isDigit := by
  rcases List.mem_append.1 member with digit | filler
  · exact isDigit_of_mem_digits digit
  · rw [List.eq_of_mem_replicate filler]
    decide

/-- With the point behind a digit, the digits before it make up a whole number of some digits. -/
theorem positional_of_pos {d : Real.Decimal} (zero : d.coefficient = 0 → d.exponent = 0)
    (point : 0 < d.pointPosition) (near : d.pointPosition ≤ 16) :
    IsWhole d.positional.1 ∧ Text.number d.positional.1 < 10 ^ 16 ∧
      ∀ c ∈ d.positional.2, c.isDigit := by
  obtain ⟨place, position⟩ : ∃ place, d.pointPosition.toNat = place + 1 :=
    ⟨d.pointPosition.toNat - 1, by omega⟩
  obtain ⟨c, run, shape, decimal⟩ := digits_eq_cons d.coefficient
  generalize count : place + 1 - (digits d.coefficient).length = zeros
  have parts : d.positional = ((digits d.coefficient ++ List.replicate zeros '0').take (place + 1),
      (digits d.coefficient ++ List.replicate zeros '0').drop (place + 1)) := by
    rw [Real.Decimal.positional, if_neg (by omega), position, count]
  have before : ∀ c ∈ d.positional.1, c.isDigit := by
    rw [parts]
    exact fun c member => isDigit_of_mem_filled (List.mem_of_mem_take member)
  have after : ∀ c ∈ d.positional.2, c.isDigit := by
    rw [parts]
    exact fun c member => isDigit_of_mem_filled (List.mem_of_mem_drop member)
  have short : d.positional.1.length ≤ 16 := by
    rw [parts]
    exact (List.length_take_le _ _).trans (by omega)
  refine ⟨?_, (number_lt before).trans_le (Nat.pow_le_pow_right (by decide) short), after⟩
  -- Zero is written as one digit; any other number starts with a digit that is not zero.
  rcases Nat.eq_zero_or_pos d.coefficient with none | some
  · have first : place = 0 := by
      rw [Real.Decimal.pointPosition, none, zero none] at position
      exact Nat.succ.inj position.symm
    rw [parts, none, first]
    exact .zero
  · have leading := head?_digits some
    rw [parts, shape, List.cons_append, List.take_succ_cons] at before ⊢
    refine .digits before fun other => ?_
    simp [shape, other] at leading

theorem positional_of_nonpos {d : Real.Decimal} (point : d.pointPosition ≤ 0) :
    d.positional.1 = ['0'] ∧ ∀ c ∈ d.positional.2, c.isDigit := by
  rw [Real.Decimal.positional, if_pos point]
  refine ⟨rfl, fun c member => ?_⟩
  rcases List.mem_append.1 member with filler | digit
  · rw [List.eq_of_mem_replicate filler]
    decide
  · exact isDigit_of_mem_digits digit

/-- In positional form there are few digits before the point, and some after it. -/
theorem write_positional {d : Real.Decimal} (zero : d.coefficient = 0 → d.exponent = 0)
    (near : -5 ≤ d.pointPosition - 1 ∧ d.pointPosition - 1 < 16) :
    ∃ before after, realFormat.write d = before ++ '.' :: after ∧ IsWhole before ∧
      Text.number before < 10 ^ 16 ∧ IsDigits after := by
  have form : realFormat.isPositional (d.pointPosition - 1) = true := decide_eq_true near
  have parts : IsWhole d.positional.1 ∧ Text.number d.positional.1 < 10 ^ 16 ∧
      ∀ c ∈ d.positional.2, c.isDigit := by
    rcases Int.lt_or_le 0 d.pointPosition with point | point
    · exact positional_of_pos zero point (by omega)
    · obtain ⟨before, after⟩ := positional_of_nonpos point
      rw [before]
      exact ⟨.zero, by decide, after⟩
  obtain ⟨whole, small, decimal⟩ := parts
  rw [Real.RealFormat.write, if_pos form]
  split
  · next before split =>
    rw [split] at whole small
    exact ⟨before, ['0'], rfl, whole, small, isDigits_zero⟩
  · next before after other split =>
    rw [split] at whole small decimal
    exact ⟨before, after, rfl, whole, small, isDigits_of_mem other decimal⟩

theorem write_scientific {d : Real.Decimal}
    (far : ¬ (-5 ≤ d.pointPosition - 1 ∧ d.pointPosition - 1 < 16)) :
    ∃ c run, digits d.coefficient = c :: run ∧ realFormat.write d =
      c :: ((if run = [] then [] else '.' :: run) ++
        realFormat.exponentText (d.pointPosition - 1)) := by
  have form : realFormat.isPositional (d.pointPosition - 1) = false := decide_eq_false far
  obtain ⟨c, run, shape, -⟩ := digits_eq_cons d.coefficient
  refine ⟨c, run, shape, ?_⟩
  rw [Real.RealFormat.write, if_neg (by simp [form]), shape]
  cases run with
  | nil => rfl
  | cons first others => rfl

namespace Reader

/-! Numbers, in the parts that the grammar has. -/

theorem real_scaled (negative : Bool) {significand : Nat} {exponent : Int} {y : Float}
    (found : scaled (Float.ofNat significand) exponent = some y) (c : Cursor) :
    Reader.real negative significand exponent c = .ok (.real (if negative then -y else y), c) := by
  rw [Reader.real, found]
  rfl

def power (negative : Bool) (significand : Nat) (start : Int) (down : Prop) [Decidable down] :
    Reader Number := do
  match ← peek with
  | none => fail (.ended .value)
  | some _ =>
    let run ← digitRun
    if run.isEmpty then failHere (.malformed .badNumber)
    else
      let n := Text.number run
      if exponentLimit ≤ n then
        if significand ≠ 0 ∧ !down then fail (.malformed .numberTooLarge)
        else pure (.real (if negative then -0.0 else 0.0))
      else Reader.real negative significand (if down then start - n else start + n)

theorem exponentPart_eq (negative : Bool) (significand : Nat) (start : Int) :
    exponentPart negative significand start = (do
      advance
      let sign ← peek
      if sign = some (.char '+') ∨ sign = some (.char '-') then advance
      power negative significand start (sign = some (.char '-'))) := by
  rfl

theorem power_digits (negative : Bool) (significand : Nat) (start : Int) (down : Prop)
    [Decidable down] {run : List Char} (decimal : IsDigits run) {rest : List Symbol}
    (stops : NoDigit rest) (p : Bool) :
    power negative significand start down ⟨chars run rest, p⟩ =
      (if exponentLimit ≤ Text.number run then
        if significand ≠ 0 ∧ !down then fail (.malformed .numberTooLarge)
        else pure (.real (if negative then -0.0 else 0.0))
      else Reader.real negative significand
        (if down then start - Text.number run else start + Text.number run))
        ⟨rest, !rest.isEmpty⟩ := by
  cases decimal with | @digits c cs decimal =>
  have counted := digitRun_chars decimal stops true
  rw [power, bind_ok rfl]
  show (digitRun >>= _) ⟨chars (c :: cs) rest, true⟩ = _
  rw [bind_ok counted, if_neg (by simp)]

theorem exponentText_eq (e : Int) : realFormat.exponentText e =
    'e' :: (if e < 0 then '-' else '+') :: padded 1 e.natAbs := rfl

theorem isDigits_padded (width n : Nat) : IsDigits (padded width n) := by
  obtain ⟨c, cs, shape, -⟩ := isDigit_head_padded width n []
  rw [List.append_nil] at shape
  rw [shape]
  exact .digits fun d member => isDigit_of_mem_padded (shape ▸ member)

theorem exponentPart_signed (negative : Bool) (significand : Nat) (start : Int) {sign : Char}
    (kind : sign = '+' ∨ sign = '-') (run : List Char) (rest : List Symbol) (p : Bool) :
    exponentPart negative significand start ⟨chars ('e' :: sign :: run) rest, p⟩ =
      power negative significand start (sign = '-') ⟨chars run rest, false⟩ := by
  rw [exponentPart_eq, chars_cons, bind_ok (advance_cons _ _ _), bind_ok rfl,
    if_pos (by simpa using kind), chars_cons, bind_ok (advance_cons _ _ _)]
  rcases kind with rfl | rfl <;> rfl

/-- An exponent scales the digits before it. With a negative one the number may become zero. -/
theorem exponentPart_takes (negative : Bool) {significand : Nat} {start e : Int}
    (few : 0 ≤ e → e < exponentLimit) {y : Float}
    (found : scaled (Float.ofNat significand) (start + e) = some y) :
    ∃ x, Takes (exponentPart negative significand start) (realFormat.exponentText e) (.real x) := by
  have value : Text.number (padded 1 e.natAbs) = e.natAbs := number_padded 1 e.natAbs
  have decimal := isDigits_padded 1 e.natAbs
  rw [exponentText_eq]
  rcases Int.lt_or_le e 0 with below | above
  · have place : start - e.natAbs = start + e := by omega
    rw [if_pos below]
    by_cases tiny : exponentLimit ≤ e.natAbs
    · refine ⟨if negative then -0.0 else 0.0, fun p rest ends => ⟨!rest.isEmpty, ?_⟩⟩
      rw [exponentPart_signed negative significand start (.inr rfl),
        power_digits negative significand start _ decimal ends.noDigit, value, if_pos tiny,
        if_neg (by simp)]
      rfl
    · refine ⟨if negative then -y else y, fun p rest ends => ⟨!rest.isEmpty, ?_⟩⟩
      rw [exponentPart_signed negative significand start (.inr rfl),
        power_digits negative significand start _ decimal ends.noDigit, value, if_neg tiny,
        if_pos rfl, place, real_scaled negative found]
  · have place : start + e.natAbs = start + e := by omega
    have limit := few above
    refine ⟨if negative then -y else y, fun p rest ends => ⟨!rest.isEmpty, ?_⟩⟩
    rw [if_neg (by omega), exponentPart_signed negative significand start (.inl rfl),
      power_digits negative significand start _ decimal ends.noDigit, value, if_neg (by omega),
      if_neg (by decide), place, real_scaled negative found]

theorem fractionPart_digits (negative : Bool) (significand : Nat) (start : Int) {run : List Char}
    (decimal : IsDigits run) {more : List Symbol} (stops : NoDigit more) (p : Bool)
    {counted : Nat} {unused : List Char} (found : accumulate significand run = (counted, unused)) :
    fractionPart negative significand start ⟨chars ('.' :: run) more, p⟩ =
      (if startsExponent more.head? then
        exponentPart negative counted (start - (run.length - unused.length : Nat))
      else Reader.real negative counted (start - (run.length - unused.length : Nat)))
        ⟨more, !more.isEmpty⟩ := by
  cases decimal with | @digits c cs decimal =>
  rw [fractionPart, chars_cons, bind_ok (advance_cons _ _ _),
    bind_ok (digitRun_chars decimal stops false), if_neg (by simp), found]
  rfl

theorem afterWhole_point (negative : Bool) (significand : Nat) (more : List Symbol) (p : Bool) :
    afterWhole negative significand 0 ⟨.char '.' :: more, p⟩ =
      fractionPart negative significand 0 ⟨.char '.' :: more, true⟩ := by
  rw [afterWhole, bind_ok rfl, if_pos (by simp)]
  rfl

/-- A fraction without an exponent makes the number no greater than its whole part. -/
theorem afterWhole_fraction (negative : Bool) {significand : Nat}
    (fits : 10 * significand + 9 < wordLimit) {run : List Char} (decimal : IsDigits run) :
    ∃ x, Takes (afterWhole negative significand 0) ('.' :: run) (.real x) := by
  cases found : accumulate significand run with | mk counted unused =>
  have used : 0 < run.length - unused.length := by
    cases decimal with | @digits c cs decimal =>
    have digit := decimal c List.mem_cons_self
    have last : c.toNat ≤ 57 := (Char.isDigit_iff_toNat.1 digit).2
    rw [accumulate, if_pos (by omega)] at found
    have rest := length_accumulate (10 * significand + (c.toNat - 48)) cs
    rw [found] at rest
    dsimp only at rest
    rw [List.length_cons]
    omega
  have below : ((0 : Nat) : Int) - (run.length - unused.length : Nat) < 0 := by omega
  obtain ⟨y, scales⟩ := scaled_of_neg below (Float.ofNat counted)
  refine ⟨if negative then -y else y, fun p rest ends => ⟨!rest.isEmpty, ?_⟩⟩
  rw [chars_cons, afterWhole_point, ← chars_cons,
    fractionPart_digits negative significand 0 decimal ends.noDigit true found,
    startsExponent_of_ends ends, if_neg (by decide)]
  exact real_scaled negative scales _

theorem noDigit_exponentText (e : Int) (rest : List Symbol) :
    NoDigit (chars (realFormat.exponentText e) rest) := by
  rintro c ⟨⟩
  rfl

/-- Digits that are counted in full come with a fraction and an exponent, or with the latter. -/
theorem afterWhole_power (negative : Bool) {significand : Nat} {run : List Char}
    (decimal : ∀ c ∈ run, c.isDigit) (fits : Nat.ofDigitChars 10 run significand < wordLimit)
    {e : Int} (few : 0 ≤ e → e < exponentLimit) {y : Float}
    (found : scaled (Float.ofNat (Nat.ofDigitChars 10 run significand)) (e - run.length) = some y) :
    ∃ x, Takes (afterWhole negative significand 0)
      ((if run = [] then [] else '.' :: run) ++ realFormat.exponentText e) (.real x) := by
  have start : ((0 : Nat) - (run.length - 0 : Nat) : Int) + e = e - run.length := by omega
  rw [← start] at found
  obtain ⟨x, takes⟩ := exponentPart_takes negative few found
  refine ⟨x, fun p rest ends => ?_⟩
  cases run with
  | nil =>
    obtain ⟨q, read⟩ := takes true rest ends
    refine ⟨q, ?_⟩
    rw [if_pos rfl, List.nil_append, ← read]
    rw [afterWhole, bind_ok rfl]
    rfl
  | cons c cs =>
    obtain ⟨q, read⟩ := takes (!(chars (realFormat.exponentText e) rest).isEmpty) rest ends
    refine ⟨q, ?_⟩
    rw [if_neg (by simp), chars_append, chars_cons, afterWhole_point, ← chars_cons,
      fractionPart_digits negative significand 0 (.digits decimal) (noDigit_exponentText e rest) true
        (accumulate_of_lt fits)]
    exact read

theorem unsigned_takes {negative : Bool} {whole tail : List Char} (hw : IsWhole whole)
    (fits : Text.number whole < wordLimit)
    (stops : ∀ rest : List Symbol, Ends rest → NoDigit (chars tail rest)) {n : Number}
    (takes : Takes (afterWhole negative (Text.number whole) 0) tail n) :
    Takes (unsigned negative) (whole ++ tail) n := by
  intro p rest ends
  obtain ⟨q, read⟩ := takes (!(chars tail rest).isEmpty) rest ends
  refine ⟨q, ?_⟩
  rw [chars_append, unsigned_whole negative hw fits (stops rest ends), read]

def unsignedText (x : Float) : List Char :=
  if Real.magnitude x = 0 then ['0', '.', '0'] else realFormat.write (Real.shortest .even x)

theorem realText_eq {x : Float} (finite : x.isFinite) :
    realText x = (if Real.isNegative x then ['-'] else []) ++ unsignedText x := by
  rw [realText, if_pos finite, unsignedText]
  by_cases zero : Real.magnitude x = 0 <;> simp [zero]

theorem unsigned_fraction (negative : Bool) {before after : List Char} (whole : IsWhole before)
    (small : Text.number before < 10 ^ 16) (decimal : IsDigits after) :
    ∃ y, Takes (unsigned negative) (before ++ '.' :: after) (.real y) := by
  have limit : wordLimit = 2 ^ 64 := rfl
  have fits : 10 * Text.number before + 9 < wordLimit := by omega
  obtain ⟨y, takes⟩ := afterWhole_fraction negative fits decimal
  refine ⟨y, unsigned_takes whole (by omega) (fun rest _ => ?_) takes⟩
  rintro c ⟨⟩
  rfl

theorem unsigned_power (negative : Bool) {d : Real.Decimal} {c : Char} {run : List Char}
    (shape : digits d.coefficient = c :: run) (short : d.coefficient ≤ 10 ^ 17)
    (few : d.exponent < 309) {y : Float}
    (found : scaled (Float.ofNat d.coefficient) d.exponent = some y) :
    ∃ x, Takes (unsigned negative) (c :: ((if run = [] then [] else '.' :: run) ++
      realFormat.exponentText (d.pointPosition - 1))) (.real x) := by
  have limit : wordLimit = 2 ^ 64 := rfl
  have bound : exponentLimit = 2 ^ 31 := rfl
  have decimal : ∀ a ∈ c :: run, a.isDigit :=
    fun a member => isDigit_of_mem_digits (shape ▸ member)
  have counted : Nat.ofDigitChars 10 run (Text.number [c]) = d.coefficient :=
    calc Nat.ofDigitChars 10 run (Text.number [c]) = Text.number (c :: run) := rfl
      _ = d.coefficient := by rw [← shape, number_digits]
  have length : (digits d.coefficient).length ≤ 18 :=
    (Nat.length_toDigits_le_iff (by decide) (by decide)).2 (by omega)
  have position : d.pointPosition = run.length + 1 + d.exponent := by
    rw [Real.Decimal.pointPosition, shape, List.length_cons]
    omega
  rw [shape, List.length_cons] at length
  -- The digits after the point count against the exponent that is written.
  have place : d.pointPosition - 1 - run.length = d.exponent := by omega
  have leading : IsWhole [c] := by
    by_cases zero : c = '0'
    · exact zero ▸ .zero
    · exact .digits (fun a member => decimal a (by simp_all)) zero
  have fits : Nat.ofDigitChars 10 run (Text.number [c]) < wordLimit := by omega
  have small : 0 ≤ d.pointPosition - 1 → d.pointPosition - 1 < exponentLimit := by omega
  obtain ⟨x, takes⟩ := afterWhole_power negative
    (fun a member => decimal a (List.mem_cons_of_mem c member)) fits small
    (by rwa [counted, place])
  refine ⟨x, unsigned_takes leading ?_ (fun rest _ => ?_) takes⟩
  · have digit : Text.number [c] < 10 ^ 1 := number_lt fun a member => decimal a (by simp_all)
    omega
  · split
    · exact noDigit_exponentText _ rest
    · rintro a ⟨⟩
      rfl

theorem unsigned_real (negative : Bool) {x : Float} (finite : x.isFinite) :
    ∃ y, Takes (unsigned negative) (unsignedText x) (.real y) := by
  unfold unsignedText
  split
  · exact unsigned_fraction negative .zero (by decide) isDigits_zero
  next nonzero =>
  have size := Real.shortest_atMost .even nonzero
  obtain ⟨few, y, found⟩ := scaled_shortest finite nonzero
  generalize Real.shortest .even x = d at size few found ⊢
  by_cases near : -5 ≤ d.pointPosition - 1 ∧ d.pointPosition - 1 < 16
  · obtain ⟨before, after, text, whole, small, decimal⟩ := write_positional size.zero near
    rw [text]
    exact unsigned_fraction negative whole small decimal
  · obtain ⟨c, run, shape, text⟩ := write_scientific near
    rw [text]
    exact unsigned_power negative shape size.short few found

theorem isDigit_head_unsignedText (x : Float) :
    ∃ c more, unsignedText x = c :: more ∧ c.isDigit := by
  unfold unsignedText
  split
  · exact ⟨_, _, rfl, rfl⟩
  next nonzero =>
  have size := Real.shortest_atMost .even nonzero
  generalize Real.shortest .even x = d at size
  by_cases near : -5 ≤ d.pointPosition - 1 ∧ d.pointPosition - 1 < 16
  · obtain ⟨before, after, text, whole, -⟩ := write_positional size.zero near
    rw [text]
    exact whole.starts _
  · obtain ⟨c, run, shape, text⟩ := write_scientific near
    exact ⟨c, _, text, isDigit_of_mem_digits (n := d.coefficient) (by simp [shape])⟩

theorem anyNumber_real {x : Float} (finite : x.isFinite) :
    ∃ y, Takes anyNumber (realText x) (.real y) := by
  obtain ⟨y, takes⟩ := unsigned_real (Real.isNegative x) finite
  refine ⟨y, fun p rest ends => ?_⟩
  rw [realText_eq finite, anyNumber, bind_ok rfl]
  cases sign : Real.isNegative x with
  | true =>
    rw [sign] at takes
    obtain ⟨q, read⟩ := takes false rest ends
    exact ⟨q, read⟩
  | false =>
    rw [sign] at takes
    obtain ⟨q, read⟩ := takes true rest ends
    obtain ⟨c, more, text, digit⟩ := isDigit_head_unsignedText x
    have other : c ≠ '-' := by
      rintro rfl
      cases digit
    refine ⟨q, ?_⟩
    rw [text] at read ⊢
    simpa [other] using read

theorem startsNumber_realText {x : Float} (finite : x.isFinite) :
    ∃ c more, realText x = c :: more ∧ startsNumber (.char c) = true := by
  obtain ⟨c, more, text, digit⟩ := isDigit_head_unsignedText x
  rw [realText_eq finite, text]
  cases Real.isNegative x with
  | true => exact ⟨_, _, rfl, by decide⟩
  | false => exact ⟨_, _, rfl, by simp [startsNumber, digit]⟩

theorem float_accepts {x : Float} (finite : x.isFinite) : ∃ y, Accepts float (.real x) y := by
  obtain ⟨y, takes⟩ := anyNumber_real finite
  obtain ⟨c, more, text, starts⟩ := startsNumber_realText finite
  refine ⟨y, fun gap cs blank spelled p rest ends => ?_⟩
  cases spelled
  obtain ⟨q, read⟩ := takes true rest ends
  have found : number "f64" ⟨chars gap (chars (realText x) rest), p⟩ = .ok (.real y, ⟨rest, q⟩) := by
    rw [text, chars_cons] at read ⊢
    rw [number_gap "f64" blank starts, read]
  refine ⟨q, ?_⟩
  rw [chars_append, float, bind_ok found]
  rfl

end Reader

end ObsCatalog.Json
