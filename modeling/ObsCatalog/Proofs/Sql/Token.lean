import ObsCatalog.Sql.Token

/-! Tokens of texts that stand in other texts.

A text that leaves no quote and no comment open is cut into the same tokens wherever a closing
parenthesis comes right after it. Only their places differ.
-/

set_option autoImplicit false

namespace ObsCatalog.Sql.Token

open Text

variable {more : List Char}

theorem takeWhile_close {p : Char → Bool} (stops : p ')' = false) (cs : List Char) :
    (cs ++ ')' :: more).takeWhile p = cs.takeWhile p := by
  induction cs with
  | nil => simp [stops]
  | cons c cs ih => rw [List.cons_append, List.takeWhile_cons, List.takeWhile_cons, ih]

theorem begins_of_append_close {cs tail : List Char} {d : Char}
    (begins : cs ++ ')' :: more = d :: tail) (other : d ≠ ')') :
    ∃ rest, cs = d :: rest ∧ tail = rest ++ ')' :: more := by
  cases cs with
  | nil =>
    cases begins
    exact absurd rfl other
  | cons c cs =>
    cases begins
    exact ⟨cs, rfl, rfl⟩

theorem takeDigits_close (cs : List Char) :
    takeDigits (cs ++ ')' :: more).length (cs ++ ')' :: more) =
      ((takeDigits cs.length cs).1, (takeDigits cs.length cs).2 ++ ')' :: more) := by
  have run : (cs.takeWhile Char.isDigit).length ≤ cs.length :=
    (List.takeWhile_prefix _).length_le
  simp only [takeDigits, List.take_length, takeWhile_close (p := Char.isDigit) rfl]
  rw [List.drop_append_of_le_length run]

def fractionAfter : List Char → Option (List Char) × List Char
  | '.' :: after =>
    let (run, rest) := takeDigits after.length after
    (some run, rest)
  | rest => (none, rest)

def exponentDigits (negative : Bool) (cs : List Char) : Option (Int × List Char) :=
  match takeDigits cs.length cs with
  | ([], _) => none
  | (run, rest) =>
    some (if negative then -(Text.number run : Int) else (Text.number run : Int), rest)

def withExponent (whole : List Char) (fraction : Option (List Char)) (rest : List Char) :
    Real.Literal × List Char :=
  match rest with
  | e :: after =>
    if e = 'e' ∨ e = 'E' then
      match Real.Literal.exponentAfter after with
      | some (n, rest) => (⟨whole, fraction, some n⟩, rest)
      | none => (⟨whole, fraction, none⟩, rest)
    else (⟨whole, fraction, none⟩, rest)
  | [] => (⟨whole, fraction, none⟩, [])

theorem exponentAfter_eq (cs : List Char) :
    Real.Literal.exponentAfter cs =
      match cs with
      | '-' :: rest => exponentDigits true rest
      | '+' :: rest => exponentDigits false rest
      | rest => exponentDigits false rest := rfl

theorem scan_eq (cs : List Char) :
    Real.Literal.scan cs =
      withExponent (takeDigits cs.length cs).1 (fractionAfter (takeDigits cs.length cs).2).1
        (fractionAfter (takeDigits cs.length cs).2).2 := rfl

theorem fractionAfter_close (cs : List Char) :
    fractionAfter (cs ++ ')' :: more) =
      ((fractionAfter cs).1, (fractionAfter cs).2 ++ ')' :: more) := by
  cases cs with
  | nil => rfl
  | cons c cs =>
    by_cases point : c = '.'
    · subst point
      simp only [List.cons_append, fractionAfter, takeDigits_close]
    · simp [fractionAfter, point]

theorem exponentDigits_close (negative : Bool) (cs : List Char) :
    exponentDigits negative (cs ++ ')' :: more) =
      (exponentDigits negative cs).map fun (n, rest) => (n, rest ++ ')' :: more) := by
  unfold exponentDigits
  rw [takeDigits_close]
  generalize takeDigits cs.length cs = taken
  obtain ⟨_ | ⟨d, run⟩, rest⟩ := taken <;> rfl

theorem exponentAfter_close (cs : List Char) :
    Real.Literal.exponentAfter (cs ++ ')' :: more) =
      (Real.Literal.exponentAfter cs).map fun (n, rest) => (n, rest ++ ')' :: more) := by
  rw [exponentAfter_eq, exponentAfter_eq cs]
  cases cs with
  | nil => rfl
  | cons c cs =>
    by_cases minus : c = '-'
    · subst minus
      exact exponentDigits_close true cs
    by_cases plus : c = '+'
    · subst plus
      exact exponentDigits_close false cs
    · simpa [minus, plus] using exponentDigits_close false (c :: cs)

theorem withExponent_close (whole : List Char) (fraction : Option (List Char)) (cs : List Char) :
    withExponent whole fraction (cs ++ ')' :: more) =
      ((withExponent whole fraction cs).1, (withExponent whole fraction cs).2 ++ ')' :: more) := by
  cases cs with
  | nil => rfl
  | cons e after =>
    simp only [List.cons_append, withExponent, exponentAfter_close]
    split
    · cases Real.Literal.exponentAfter after <;> rfl
    · rfl

theorem scan_close (cs : List Char) :
    Real.Literal.scan (cs ++ ')' :: more) =
      ((Real.Literal.scan cs).1, (Real.Literal.scan cs).2 ++ ')' :: more) := by
  rw [scan_eq, scan_eq cs, takeDigits_close, fractionAfter_close, withExponent_close]

theorem hexLength_close (cs : List Char) : hexLength (cs ++ ')' :: more) = hexLength cs := by
  rcases cs with _ | ⟨c, _ | ⟨x, cs⟩⟩
  · simp [hexLength]
  · by_cases zero : c = '0'
    · subst zero
      simp [hexLength]
    · simp [hexLength, zero]
  · by_cases zero : c = '0'
    · subst zero
      simp only [List.cons_append, hexLength,
        takeWhile_close (p := fun c => isHexDigit c || c == '_') (by decide)]
    · simp [hexLength, zero]

theorem hexLength_cases (cs : List Char) :
    hexLength cs = 0 ∨ ∃ x rest, cs = '0' :: x :: rest ∧ x.toLower = 'x' ∧
      hexLength cs = (rest.takeWhile fun c => isHexDigit c || c == '_').length + 2 := by
  fun_cases hexLength cs with
  | case1 x rest run hex => exact .inr ⟨x, rest, rfl, by simp_all, rfl⟩
  | case2 => exact .inl rfl
  | case3 => exact .inl rfl

theorem hexLength_le (cs : List Char) : hexLength cs ≤ cs.length := by
  rcases hexLength_cases cs with none | ⟨x, rest, rfl, -, count⟩
  · exact none ▸ Nat.zero_le _
  · rw [count]
    exact Nat.add_le_add_right (List.takeWhile_prefix _).length_le 2

theorem decimalLength_close (cs : List Char) :
    decimalLength (cs ++ ')' :: more) = decimalLength cs := by
  rw [decimalLength, List.map_append, List.map_cons, if_neg (by decide), scan_close]
  simp only [List.length_append, List.length_cons, List.length_map, Nat.add_sub_add_right]
  rfl

theorem numeralOf_close {n : Nat} {cs : List Char} (within : n ≤ cs.length)
    (isDigit : Char → Bool) (read : List Char → Token) :
    numeralOf isDigit read n (cs ++ ')' :: more) = numeralOf isDigit read n cs := by
  simp only [numeralOf, List.drop_append_of_le_length within,
    List.take_append_of_le_length within, takeWhile_close (p := isNameChar) (by decide)]

theorem numeral_close (cs : List Char) : numeral (cs ++ ')' :: more) = numeral cs := by
  have within := hexLength_le cs
  unfold numeral
  rw [hexLength_close, decimalLength_close]
  split
  · exact numeralOf_close (Nat.sub_le _ _) _ _
  · exact numeralOf_close within _ _

theorem quotedBody_close {quote : Char} (other : quote ≠ ')') {cs : List Char}
    (found : (quotedBody quote cs).isSome) :
    quotedBody quote (cs ++ ')' :: more) = quotedBody quote cs := by
  fun_induction quotedBody quote cs with
  | case1 => cases found
  | case2 => simp [quotedBody, other.symm]
  | case3 => cases found
  | case4 rest ih =>
    rw [Option.isSome_map] at found
    simp only [List.cons_append, quotedBody, if_true, ih found]
  | case5 d rest single => simp [quotedBody, single]
  | case6 c d rest inside ih =>
    rw [Option.isSome_map] at found
    have same := ih found
    rw [List.cons_append] at same
    simp only [List.cons_append, quotedBody, if_neg inside, same]

theorem bracketBody_close {cs : List Char} (found : (bracketBody cs).isSome) :
    bracketBody (cs ++ ')' :: more) = bracketBody cs := by
  fun_induction bracketBody cs with
  | case1 => cases found
  | case2 rest => simp [bracketBody]
  | case3 c rest inside ih =>
    rw [Option.isSome_map] at found
    simp only [List.cons_append, bracketBody, if_neg inside, ih found]

theorem closed_close {make : String → Token} {rest : List Char}
    {body next : Option (List Char × Nat)} (same : body.isSome → next = body)
    (whole : (closed make rest body).1 ≠ .stray) :
    closed make (rest ++ ')' :: more) next = closed make rest body := by
  cases body with
  | none => exact absurd rfl whole
  | some found =>
    rw [same rfl]
    rfl

theorem beginsBlob_close (c : Char) (rest : List Char) :
    beginsBlob c (rest ++ ')' :: more) = beginsBlob c rest := by
  cases rest with
  | nil => simp [beginsBlob]
  | cons d rest => rfl

theorem blobLiteral_close {cs : List Char} (whole : (blobLiteral cs).1 ≠ .stray)
    (more : List Char) : blobLiteral (cs ++ ')' :: more) = blobLiteral cs := by
  by_cases ends : ((cs.drop 1).takeWhile (· != '\'')).length + 1 < cs.length
  · have same : ((cs ++ ')' :: more).drop 1).takeWhile (· != '\'') =
        (cs.drop 1).takeWhile (· != '\'') := by
      rw [List.drop_append_of_le_length (by omega), List.takeWhile_append,
        if_neg (by rw [List.length_drop]; omega)]
    have further : ((cs.drop 1).takeWhile (· != '\'')).length + 1 < (cs ++ ')' :: more).length := by
      rw [List.length_append]
      omega
    simp only [blobLiteral, same, if_pos ends, if_pos further]
  · exact absurd (by simp only [blobLiteral, if_neg ends]) whole

theorem parameterName_close (cs : List Char) :
    parameterName (cs ++ ')' :: more) = parameterName cs := by
  fun_induction parameterName cs with
  | case1 rest n proper found ih =>
    rw [found] at ih
    simp [parameterName, ih]
  | case2 c rest single named n proper found ih =>
    rw [found] at ih
    have other : c ≠ ':' := by
      rintro rfl
      exact absurd named (by decide)
    simp [parameterName, other, named, ih]
  | case3 c rest single other =>
    have further : ∀ tail, c = ':' → rest ++ ')' :: more = ':' :: tail → False := by
      intro tail colon next
      obtain ⟨tail, same, -⟩ := begins_of_append_close next (by decide)
      exact single tail colon same
    rw [List.cons_append, parameterName.eq_2 _ _ further, if_neg other]
  | case4 => simp [parameterName, isNameChar, isNameStart]

theorem parameterName_le (cs : List Char) : (parameterName cs).1 ≤ cs.length := by
  fun_induction parameterName cs with
  | case1 rest n proper found ih => simpa [found] using ih
  | case2 c rest single named n proper found ih => simpa [found] using ih
  | case3 => exact Nat.zero_le _
  | case4 => exact Nat.le_refl _

theorem namedParameter_close (mark : Char) (rest : List Char) :
    namedParameter mark (rest ++ ')' :: more) = namedParameter mark rest := by
  have name : (rest ++ ')' :: more).take (parameterName rest).1 =
      rest.take (parameterName rest).1 :=
    List.take_append_of_le_length (parameterName_le rest)
  have digit : ((rest ++ ')' :: more).head?.elim false Char.isDigit) =
      rest.head?.elim false Char.isDigit := by
    cases rest <;> rfl
  simp only [namedParameter, parameterName_close, name, digit]

theorem first_close {c : Char} {rest : List Char} (whole : (first c rest).1 ≠ .stray)
    (more : List Char) :
    first c (rest ++ ')' :: more) = first c rest := by
  have number : numeral (c :: (rest ++ ')' :: more)) = numeral (c :: rest) :=
    numeral_close (c :: rest)
  revert whole
  unfold first
  rw [beginsBlob_close, number]
  -- No case below looks into a number.
  generalize numeral (c :: rest) = number
  split
  · exact fun whole => blobLiteral_close whole more
  split
  · intro _
    rw [takeWhile_close (by decide)]
  split
  · exact fun _ => rfl
  intro whole
  split at whole <;> try rfl
  · exact closed_close (quotedBody_close (by decide)) whole
  · exact closed_close (quotedBody_close (by decide)) whole
  · exact closed_close (quotedBody_close (by decide)) whole
  · exact closed_close bracketBody_close whole
  · simp only [takeWhile_close (p := Char.isDigit) rfl]
  · exact namedParameter_close ':' rest
  · exact namedParameter_close '@' rest
  · exact namedParameter_close '$' rest
  · exact namedParameter_close '#' rest
  case h_37 => exact absurd rfl whole
  -- A parenthesis makes no operator longer.
  case h_24 tail single _ _ _ =>
    cases tail with
    | nil => rfl
    | cons d tail =>
      rw [List.cons_append, List.cons_append]
      simp_all
  all_goals
    cases rest with
    | nil => rfl
    | cons d rest =>
      rw [List.cons_append]
      simp_all

def endsComment : List Char → Bool
  | [] => false
  | '*' :: '/' :: _ => true
  | _ :: rest => endsComment rest

/-- The text begins with a comment, or would if more came, and nothing in it ends the comment. -/
def isOpenComment : List Char → Bool
  | '-' :: '-' :: rest => !rest.contains '\n'
  | '/' :: '*' :: rest => !endsComment rest
  | _ => false

theorem afterComment_close {cs : List Char} (ends : endsComment cs) (more : List Char) :
    afterComment (cs ++ ')' :: more) = afterComment cs ++ ')' :: more := by
  fun_induction endsComment cs with
  | case1 => cases ends
  | case2 => simp [afterComment]
  | case3 c rest other ih =>
    have further : ∀ tail, c = '*' → rest ++ ')' :: more = '/' :: tail → False := by
      intro tail star next
      obtain ⟨tail, same, -⟩ := begins_of_append_close next (by decide)
      exact other tail star same
    rw [List.cons_append, afterComment.eq_3 _ _ further, afterComment.eq_3 _ _ other, ih ends]

theorem takeWhile_append_of_mem {p : Char → Bool} {cs : List Char} {c : Char} (member : c ∈ cs)
    (stops : p c = false) (next : List Char) : (cs ++ next).takeWhile p = cs.takeWhile p := by
  induction cs with
  | nil => cases member
  | cons d cs ih =>
    rw [List.cons_append, List.takeWhile_cons, List.takeWhile_cons]
    cases taken : p d with
    | false => rfl
    | true =>
      rcases List.mem_cons.1 member with rfl | member
      · simp [stops] at taken
      · simp only [ih member]

theorem endsComment_append {cs : List Char} (ends : endsComment cs) (next : List Char) :
    endsComment (cs ++ next) := by
  fun_induction endsComment cs with
  | case1 => cases ends
  | case2 rest => simp [endsComment]
  | case3 c rest other ih =>
    rw [List.cons_append]
    unfold endsComment
    split
    · next same => cases same
    · rfl
    · next same =>
      cases same
      exact ih ends

/-- A comment that does not begin in a text does not begin with the parenthesis after it. -/
theorem begins_no_comment_close {c : Char} {rest : List Char}
    (closed : isOpenComment (c :: rest) = false)
    (line : ∀ tail, c = '-' → rest = '-' :: tail → False)
    (block : ∀ d tail, c = '/' → rest = '*' :: d :: tail → False) (more : List Char) :
    (∀ tail, c = '-' → rest ++ ')' :: more = '-' :: tail → False) ∧
      ∀ d tail, c = '/' → rest ++ ')' :: more = '*' :: d :: tail → False := by
  constructor
  · intro tail minus next
    obtain ⟨tail, same, -⟩ := begins_of_append_close next (by decide)
    exact line tail minus same
  · intro d tail slash next
    obtain ⟨tail, same, -⟩ := begins_of_append_close next (by decide)
    cases tail with
    | nil => simp [slash, same, isOpenComment, endsComment] at closed
    | cons d tail => exact block d tail slash same

theorem gap_close {cs : List Char} (closed : isOpenComment cs = false) (more : List Char) :
    gap (cs ++ ')' :: more) = gap cs := by
  fun_cases gap cs with
  | case1 rest =>
    have ends : '\n' ∈ rest := by simpa [isOpenComment] using closed
    simp only [List.cons_append, gap]
    rw [takeWhile_append_of_mem ends (by decide)]
  | case2 c rest =>
    have ends : endsComment (c :: rest) := by simpa [isOpenComment] using closed
    have same := afterComment_close ends more
    rw [List.cons_append] at same
    simp only [List.cons_append, gap, same, List.length_append]
    omega
  | case3 c rest line block blank =>
    obtain ⟨line, block⟩ := begins_no_comment_close closed line block more
    rw [List.cons_append, gap.eq_3 _ _ line block, if_pos blank, takeWhile_close (by decide)]
  | case4 rest line block solid =>
    obtain ⟨line, block⟩ := begins_no_comment_close closed line block more
    rw [List.cons_append, gap.eq_3 _ _ line block, if_neg solid, if_pos rfl]
  | case5 c rest line block solid other =>
    obtain ⟨line, block⟩ := begins_no_comment_close closed line block more
    rw [List.cons_append, gap.eq_3 _ _ line block, if_neg solid, if_neg other]
  | case6 => simp [gap, isSpace]

theorem isOpenComment_close {cs : List Char} (closed : isOpenComment cs = false)
    (more : List Char) : isOpenComment (cs ++ ')' :: more) = false := by
  fun_cases isOpenComment cs with
  | case1 rest =>
    have ends : '\n' ∈ rest := by simpa [isOpenComment] using closed
    simp [isOpenComment, ends]
  | case2 rest =>
    have ends : endsComment rest := by simpa [isOpenComment] using closed
    simp [isOpenComment, endsComment_append ends]
  | case3 _ line block =>
    refine isOpenComment.eq_3 _ (fun tail same => ?_) (fun tail same => ?_)
    · obtain ⟨rest, rfl, -⟩ := begins_of_append_close same (by decide)
      obtain ⟨rest, rfl, -⟩ := begins_of_append_close (List.cons.inj same).2 (by decide)
      exact line rest rfl
    · obtain ⟨rest, rfl, -⟩ := begins_of_append_close same (by decide)
      obtain ⟨rest, rfl, -⟩ := begins_of_append_close (List.cons.inj same).2 (by decide)
      exact block rest rfl

/-- A text that begins at an offset is cut into tokens up to its end, with no quote and no
comment left open. -/
inductive Cut : Nat → List Char → List Lexeme → Prop where
  | nil (offset : Nat) : Cut offset [] []
  | gap {offset : Nat} {c : Char} {cs rest : List Char} {ts : List Lexeme} :
      gap (c :: (cs ++ rest)) = cs.length + 1 → isOpenComment (c :: (cs ++ rest)) = false →
      Cut (offset + byteCount (c :: cs)) rest ts → Cut offset (c :: (cs ++ rest)) ts
  | token {offset : Nat} {c : Char} {cs rest : List Char} {token : Token} {ts : List Lexeme} :
      Token.gap (c :: (cs ++ rest)) = 0 → isOpenComment (c :: (cs ++ rest)) = false →
      first c (cs ++ rest) = (token, cs.length + 1) → token ≠ .stray →
      Cut (offset + byteCount (c :: cs)) rest ts →
      Cut offset (c :: (cs ++ rest)) (⟨token, String.ofList (c :: cs), offset⟩ :: ts)

theorem byteCount_cons (c : Char) (cs : List Char) :
    byteCount (c :: cs) = c.utf8Size + byteCount cs := by
  have total (n : Nat) : cs.foldl (fun n c => n + c.utf8Size) n = n + byteCount cs := by
    unfold byteCount
    induction cs generalizing n with
    | nil => rfl
    | cons d cs ih =>
      rw [List.foldl_cons, List.foldl_cons, ih, ih (0 + _)]
      omega
  unfold byteCount
  rw [List.foldl_cons, total]
  simp [byteCount]

theorem byteCount_append (cs next : List Char) :
    byteCount (cs ++ next) = byteCount cs + byteCount next := by
  induction cs with
  | nil => simp [byteCount]
  | cons c cs ih =>
    rw [List.cons_append, byteCount_cons, byteCount_cons, ih]
    omega

/-- The tokens into which a text is cut are the ones that are read from it. -/
theorem Cut.scan {offset steps : Nat} {cs : List Char} {ts : List Lexeme} (cut : Cut offset cs ts)
    (enough : cs.length ≤ steps) : scan steps offset cs = ts := by
  induction cut generalizing steps with
  | nil offset => cases steps <;> rfl
  | @gap offset c cs rest ts blank _ _ ih =>
    obtain _ | steps := steps
    · simp at enough
    have fewer : rest.length ≤ steps := by
      simp only [List.length_cons, List.length_append] at enough
      omega
    have skipped : (c :: (cs ++ rest)).take (cs.length + 1) = c :: cs := by simp
    have left : (c :: (cs ++ rest)).drop (cs.length + 1) = rest := by simp
    simp only [Token.scan, blank, skipped, left, ih fewer]
  | @token offset c cs rest token ts solid _ first whole _ ih =>
    obtain _ | steps := steps
    · simp at enough
    have fewer : rest.length ≤ steps := by
      simp only [List.length_cons, List.length_append] at enough
      omega
    have spelling : (c :: (cs ++ rest)).take (cs.length + 1) = c :: cs := by simp
    have left : (c :: (cs ++ rest)).drop (cs.length + 1) = rest := by simp
    simp only [Token.scan, solid, first, spelling, left, ih fewer]

/-- The tokens into which a text is cut, unless something in it is left open. -/
def cutOf : Nat → Nat → List Char → Option (List Lexeme)
  | _, _, [] => some []
  | 0, _, _ :: _ => none
  | steps + 1, offset, c :: rest =>
    if isOpenComment (c :: rest) then none
    else
      match gap (c :: rest) with
      | 0 =>
        match first c rest with
        | (.stray, _) => none
        | (_, 0) => none
        | (token, n + 1) =>
          if rest.length < n then none
          else (cutOf steps (offset + byteCount (c :: rest.take n)) (rest.drop n)).map
            (⟨token, String.ofList (c :: rest.take n), offset⟩ :: ·)
      | n + 1 =>
        if rest.length < n then none
        else cutOf steps (offset + byteCount (c :: rest.take n)) (rest.drop n)

theorem Cut.of_cutOf {steps offset : Nat} {cs : List Char} {ts : List Lexeme}
    (found : cutOf steps offset cs = some ts) : Cut offset cs ts := by
  fun_induction cutOf steps offset cs generalizing ts with
  | case1 steps offset =>
    cases found
    exact .nil offset
  | case7 steps offset c rest closed solid token n whole read fits ih =>
    obtain ⟨others, left, rfl⟩ := Option.map_eq_some_iff.1 found
    have taken : (rest.take n).length = n := List.length_take_of_le (Nat.not_lt.1 fits)
    have cut := @Cut.token offset c (rest.take n) (rest.drop n) token others
    simp only [List.take_append_drop, taken] at cut
    exact cut solid (Bool.eq_false_iff.2 closed) read whole (ih left)
  | case9 steps offset c rest closed n blank fits ih =>
    have taken : (rest.take n).length = n := List.length_take_of_le (Nat.not_lt.1 fits)
    have cut := @Cut.gap offset c (rest.take n) (rest.drop n) ts
    simp only [List.take_append_drop, taken] at cut
    exact cut blank (Bool.eq_false_iff.2 closed) (ih found)
  | _ => cases found

theorem Cut.cutOf_eq {offset steps : Nat} {cs : List Char} {ts : List Lexeme}
    (cut : Cut offset cs ts) (enough : cs.length ≤ steps) : cutOf steps offset cs = some ts := by
  induction cut generalizing steps with
  | nil offset => cases steps <;> rfl
  | @gap offset c cs rest ts blank closed _ ih =>
    obtain _ | steps := steps
    · simp at enough
    have fewer : rest.length ≤ steps := by
      simp only [List.length_cons, List.length_append] at enough
      omega
    have taken : (cs ++ rest).take cs.length = cs := List.take_left
    have left : (cs ++ rest).drop cs.length = rest := List.drop_left
    have fits : ¬(cs ++ rest).length < cs.length := by simp
    simp only [cutOf, closed, blank, taken, left, fits, ih fewer, if_false, Bool.false_eq_true]
  | @token offset c cs rest token ts solid closed read whole _ ih =>
    obtain _ | steps := steps
    · simp at enough
    have fewer : rest.length ≤ steps := by
      simp only [List.length_cons, List.length_append] at enough
      omega
    have taken : (cs ++ rest).take cs.length = cs := List.take_left
    have left : (cs ++ rest).drop cs.length = rest := List.drop_left
    have fits : ¬(cs ++ rest).length < cs.length := by simp
    simp only [cutOf, closed, solid, read, taken, left, fits, ih fewer, if_false,
      Bool.false_eq_true, Option.map_some]

/-- A text is cut as it is alone where it comes before a parenthesis. -/
theorem Cut.close {offset : Nat} {cs : List Char} {ts next : List Lexeme} (cut : Cut offset cs ts)
    (further : Cut (offset + byteCount cs) (')' :: more) next) :
    Cut offset (cs ++ ')' :: more) (ts ++ next) := by
  induction cut with
  | nil offset => exact further
  | @gap offset c cs rest ts blank closed _ ih =>
    rw [← List.cons_append, byteCount_append, ← Nat.add_assoc] at further
    have same := gap_close closed more
    have still := isOpenComment_close closed more
    rw [List.cons_append, List.append_assoc] at same still ⊢
    exact .gap (same.trans blank) still (ih further)
  | @token offset c cs rest token ts solid closed first whole _ ih =>
    rw [← List.cons_append, byteCount_append, ← Nat.add_assoc] at further
    have same := gap_close closed more
    have still := isOpenComment_close closed more
    have read := first_close (by rwa [first]) more
    rw [List.cons_append, List.append_assoc] at same still ⊢
    rw [List.append_assoc] at read
    exact .token (same.trans solid) still (read.trans first) whole (ih further)

def shifted (k : Nat) (t : Lexeme) : Lexeme := { t with offset := t.offset + k }

theorem Cut.shifted {offset : Nat} {cs : List Char} {ts : List Lexeme} (cut : Cut offset cs ts)
    (k : Nat) : Cut (offset + k) cs (ts.map (shifted k)) := by
  induction cut with
  | nil offset => exact .nil _
  | gap blank closed _ ih =>
    rw [Nat.add_right_comm] at ih
    exact .gap blank closed ih
  | token solid closed first whole _ ih =>
    rw [Nat.add_right_comm] at ih
    exact .token solid closed first whole ih

end ObsCatalog.Sql.Token
