import ObsCatalog.Proofs.Json.Number
import ObsCatalog.Proofs.Json.Shape

/-! Words, strings and numbers that are skipped.

Their form is checked and what they stand for is not: half of a pair is skipped in a
string, and so is a number of any size.
-/

set_option autoImplicit false

namespace ObsCatalog.Json

open Text

namespace Reader

/-! Strings. What has been read of a string that is skipped does not matter. -/

theorem body_skips_piece {cs : List Char} (piece : IsPiece cs) (content rest : List Symbol) :
    ∃ more, body true .plain content (chars cs rest) = body true .plain more rest := by
  cases piece with
  | @plain c shown noQuote noSlash =>
    have visible : ¬ c.toNat < 32 := by omega
    exact ⟨.char c :: content, by simp [body, noQuote, noSlash, visible]⟩
  | @letter name c known =>
    refine ⟨.char c :: content, ?_⟩
    simp only [letterEscapes, List.mem_cons, Prod.mk.injEq, List.not_mem_nil, or_false] at known
    rcases known with ⟨rfl, rfl⟩ | ⟨rfl, rfl⟩ | ⟨rfl, rfl⟩ | ⟨rfl, rfl⟩ | ⟨rfl, rfl⟩ |
      ⟨rfl, rfl⟩ | ⟨rfl, rfl⟩ | ⟨rfl, rfl⟩ <;> rfl
  | @unit n digits spelled =>
    refine ⟨content, ?_⟩
    have start : body true .plain content (chars ('\\' :: 'u' :: digits) rest) =
        body true (.hex none []) content (chars digits rest) := by
      simp [body]
    rw [start, body_hex spelled, if_pos rfl]

theorem skipString_content {cs : List Char} (content : IsContent cs) (rest : List Symbol)
    (p : Bool) : skipString ⟨chars cs (.char '"' :: rest), p⟩ = .ok ((), ⟨rest, false⟩) := by
  have passes (before : List Symbol) : ∃ read,
      body true .plain before (chars cs (.char '"' :: rest)) = .ok (read, rest) := by
    induction content generalizing before with
    | nil => exact ⟨before.reverse, by simp [body]⟩
    | cons piece _ ih =>
      obtain ⟨more, step⟩ := body_skips_piece piece before (chars _ (.char '"' :: rest))
      rw [chars_append, step]
      exact ih more
  obtain ⟨read, whole⟩ := passes []
  rw [skipString, whole]

/-! Numbers, in the parts that the grammar has. -/

def skipPower : Reader Unit := do
  let run ← digitRun
  if run.isEmpty then
    match ← peek with
    | none => fail (.malformed .badNumber)
    | some _ => failHere (.malformed .badNumber)

theorem skipExponent_eq : skipExponent = (do
    advance
    let sign ← peek
    if sign = some (.char '+') ∨ sign = some (.char '-') then advance
    skipPower) := rfl

def skipTail : Reader Unit := do
  if startsExponent (← peek) then skipExponent

theorem skipFraction_eq : skipFraction = (do
    advance
    let run ← digitRun
    if run.isEmpty then fail (.malformed .badNumber)
    skipTail) := rfl

def skipScale : Reader Unit := do
  let next ← peek
  if next = some (.char '.') then skipFraction
  else if startsExponent next then skipExponent

def skipMagnitude : Reader Unit := do
  match ← peek with
  | none => fail (.malformed .badNumber)
  | some (.char '0') =>
    advance
    match ← peek with
    | some (.char d) => if d.isDigit then fail (.malformed .badNumber)
    | _ => pure ()
  | some _ =>
    let run ← digitRun
    if run.isEmpty then failHere (.malformed .badNumber)
  skipScale

theorem skipNumber_eq : skipNumber = (do
    if (← peek) = some (.char '-') then advance
    skipMagnitude) := rfl

theorem isSign_of_isDigit {c : Char} (digit : c.isDigit) : c ≠ '+' ∧ c ≠ '-' := by
  constructor <;> (rintro rfl; cases digit)

theorem skipPower_takes {cs : List Char} (decimal : IsDigits cs) : Takes skipPower cs () := by
  cases decimal with | digits decimal =>
  intro p rest ends
  exact ⟨!rest.isEmpty, by rw [skipPower, bind_ok (digitRun_chars decimal ends.noDigit p)]; rfl⟩

theorem skipExponent_unsigned {cs : List Char} (decimal : IsDigits cs) (letter : Char) :
    Takes skipExponent (letter :: cs) () := by
  intro p rest ends
  obtain ⟨q, read⟩ := skipPower_takes decimal true rest ends
  refine ⟨q, ?_⟩
  cases decimal with | digits decimal =>
  have unsigned := isSign_of_isDigit (decimal _ List.mem_cons_self)
  rw [skipExponent_eq, chars_cons, bind_ok (advance_cons _ _ _), bind_ok rfl,
    if_neg (by simpa using unsigned)]
  exact read

theorem skipExponent_signed {cs : List Char} (decimal : IsDigits cs) (letter : Char) {sign : Char}
    (kind : sign = '+' ∨ sign = '-') : Takes skipExponent (letter :: sign :: cs) () := by
  intro p rest ends
  obtain ⟨q, read⟩ := skipPower_takes decimal false rest ends
  refine ⟨q, ?_⟩
  rw [skipExponent_eq, chars_cons, bind_ok (advance_cons _ _ _), bind_ok rfl,
    if_pos (by simpa using kind), chars_cons, bind_ok (advance_cons _ _ _)]
  exact read

theorem skipTail_takes {cs : List Char} (exponent : IsExponent cs) : Takes skipTail cs () := by
  have starts {letter : Char} (mark : letter = 'e' ∨ letter = 'E') :
      startsExponent (some (.char letter)) = true := by
    rcases mark with rfl | rfl <;> rfl
  intro p rest ends
  cases exponent with
  | none =>
    have stops := startsExponent_of_ends ends
    exact ⟨!rest.isEmpty, by rw [skipTail, chars_nil, bind_ok rfl, stops]; rfl⟩
  | unsigned mark decimal =>
    obtain ⟨q, read⟩ := skipExponent_unsigned decimal _ true rest ends
    refine ⟨q, ?_⟩
    rw [skipTail, bind_ok rfl, chars_cons, List.head?_cons, if_pos (starts mark)]
    exact read
  | signed mark kind decimal =>
    obtain ⟨q, read⟩ := skipExponent_signed decimal _ kind true rest ends
    refine ⟨q, ?_⟩
    rw [skipTail, bind_ok rfl, chars_cons, List.head?_cons, if_pos (starts mark)]
    exact read

theorem noDigit_exponent {cs : List Char} (exponent : IsExponent cs) {rest : List Symbol}
    (ends : Ends rest) : NoDigit (chars cs rest) := by
  have other {letter : Char} (mark : letter = 'e' ∨ letter = 'E') (more : List Symbol) :
      NoDigit (.char letter :: more) := by
    intro c first
    cases first
    rcases mark with rfl | rfl <;> rfl
  cases exponent with
  | none => exact ends.noDigit
  | unsigned mark => exact other mark _
  | signed mark => exact other mark _

theorem skipFraction_takes {cs more : List Char} (decimal : IsDigits cs)
    (exponent : IsExponent more) : Takes skipFraction ('.' :: (cs ++ more)) () := by
  intro p rest ends
  cases decimal with | digits decimal =>
  have run := digitRun_chars decimal (noDigit_exponent exponent ends) false
  obtain ⟨q, read⟩ := skipTail_takes exponent (!(chars more rest).isEmpty) rest ends
  refine ⟨q, ?_⟩
  rw [skipFraction_eq, chars_cons, bind_ok (advance_cons _ _ _), chars_append, bind_ok run,
    if_neg (by simp)]
  exact read

theorem skipScale_takes {fraction exponent : List Char} (hf : IsFraction fraction)
    (he : IsExponent exponent) : Takes skipScale (fraction ++ exponent) () := by
  intro p rest ends
  cases hf with
  | none =>
    have whole : (chars exponent rest).head? ≠ some (.char '.') := by
      cases he with
      | none => exact fun point => (ends.not_number point).2.1 rfl
      | unsigned mark => rcases mark with rfl | rfl <;> simp
      | signed mark => rcases mark with rfl | rfl <;> simp
    obtain ⟨q, read⟩ := skipTail_takes he p rest ends
    refine ⟨q, ?_⟩
    rw [skipScale, List.nil_append, bind_ok rfl, if_neg whole]
    exact read
  | point decimal =>
    obtain ⟨q, read⟩ := skipFraction_takes decimal he true rest ends
    refine ⟨q, ?_⟩
    rw [skipScale, List.cons_append, bind_ok rfl, chars_cons, if_pos (by simp)]
    exact read

theorem noDigit_scale {fraction exponent : List Char} (hf : IsFraction fraction)
    (he : IsExponent exponent) {rest : List Symbol} (ends : Ends rest) :
    NoDigit (chars (fraction ++ exponent) rest) := by
  cases hf with
  | none => exact noDigit_exponent he ends
  | point =>
    intro c first
    cases first
    rfl

theorem skipMagnitude_of_ne_zero {c : Char} (other : c ≠ '0') (more : List Symbol) (p : Bool) :
    skipMagnitude ⟨.char c :: more, p⟩ = (do
      let run ← digitRun
      if run.isEmpty then failHere (.malformed .badNumber)
      skipScale : Reader Unit) ⟨.char c :: more, true⟩ := by
  rw [skipMagnitude, bind_ok rfl]
  simp [other]

theorem skipMagnitude_takes {cs : List Char} (magnitude : IsMagnitude cs) :
    Takes skipMagnitude cs () := by
  intro p rest ends
  cases magnitude with | @parts whole fraction exponent hw hf he =>
  have stops := noDigit_scale hf he ends
  have scale (p : Bool) := skipScale_takes hf he p rest ends
  -- Of what follows the whole part, only its first character matters, which is no digit.
  rw [chars_append]
  generalize chars (fraction ++ exponent) rest = scaled at stops scale
  cases hw with
  | zero =>
    obtain ⟨q, read⟩ := scale (!scaled.isEmpty)
    refine ⟨q, ?_⟩
    rw [← read, chars_cons, chars_nil, skipMagnitude, bind_ok rfl]
    show (advance >>= fun _ => peek >>= _) _ = _
    rw [bind_ok (advance_cons _ _ _), bind_ok rfl]
    cases scaled with
    | nil => rfl
    | cons s more =>
      cases s with
      | char c => simp [stops c rfl]
      | stray bytes => rfl
  | @digits c more decimal leading =>
    obtain ⟨q, read⟩ := scale (!scaled.isEmpty)
    refine ⟨q, ?_⟩
    rw [← read, chars_cons, skipMagnitude_of_ne_zero leading, ← chars_cons,
      bind_ok (digitRun_chars decimal stops true), if_neg (by simp)]

theorem skipNumber_takes {cs : List Char} (number : IsNumber cs) : Takes skipNumber cs () := by
  intro p rest ends
  cases number with
  | positive magnitude =>
    obtain ⟨q, read⟩ := skipMagnitude_takes magnitude true rest ends
    refine ⟨q, ?_⟩
    obtain ⟨c, more, rfl, digit⟩ := magnitude.starts
    have unsigned := (isSign_of_isDigit digit).2
    rw [skipNumber_eq, chars_cons, bind_ok rfl, if_neg (by simpa using unsigned)]
    exact read
  | @negative cs magnitude =>
    obtain ⟨q, read⟩ := skipMagnitude_takes magnitude false rest ends
    refine ⟨q, ?_⟩
    rw [skipNumber_eq, chars_cons, bind_ok rfl]
    exact read

theorem skipScalar_word {c : Char} {cs : List Char}
    (letter : (c = 'n' ∧ cs = ['u', 'l', 'l']) ∨ (c = 't' ∧ cs = ['r', 'u', 'e']) ∨
      (c = 'f' ∧ cs = ['a', 'l', 's', 'e'])) : Takes skipScalar (c :: cs) () := by
  intro p rest _
  rcases letter with ⟨rfl, rfl⟩ | ⟨rfl, rfl⟩ | ⟨rfl, rfl⟩
  all_goals
    obtain ⟨q, read⟩ := word_chars _ rest false
    refine ⟨q, ?_⟩
    rw [skipScalar, bind_ok rfl]
    exact read

theorem solid_of_startsValue {c : Char} (starts : startsValue c) :
    isBlank (.char c) = false ∧ c ≠ ']' ∧ c ≠ '}' ∧ c ≠ ',' := by
  refine ⟨Bool.eq_false_iff.2 fun blank => ?_, ?_, ?_, ?_⟩
  · simp only [isBlank, Bool.or_eq_true, decide_eq_true_eq] at blank
    rcases blank with ((rfl | rfl) | rfl) | rfl <;> cases starts
  all_goals
    rintro rfl
    cases starts

theorem skipScalar_number {cs : List Char} (number : IsNumber cs) : Takes skipScalar cs () := by
  intro p rest ends
  obtain ⟨q, read⟩ := skipNumber_takes number true rest ends
  refine ⟨q, ?_⟩
  obtain ⟨c, more, rfl, kind⟩ := number.starts
  have starts : startsNumber (.char c) = true := by simpa [startsNumber] using kind
  have other : c ≠ 'n' ∧ c ≠ 't' ∧ c ≠ 'f' ∧ c ≠ '"' := by
    refine ⟨?_, ?_, ?_, ?_⟩ <;> (rintro rfl; cases starts)
  rw [chars_cons] at read
  rw [skipScalar, chars_cons, bind_ok rfl]
  simpa [other, starts] using read

theorem skipScalar_string {cs : List Char} (string : IsString cs) : Takes skipScalar cs () := by
  intro p rest _
  cases string with | quoted content =>
  refine ⟨false, ?_⟩
  rw [List.cons_append, chars_cons, chars_append, skipScalar, bind_ok rfl]
  exact skipString_content content rest false

end Reader

end ObsCatalog.Json
