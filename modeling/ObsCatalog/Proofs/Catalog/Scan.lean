import ObsCatalog.Proofs.Catalog.Filter
import ObsCatalog.Proofs.Catalog.Placeholder

/-! What the scan of a clause overlooks.

The scan for placeholders with a number or a name knows two kinds of quotes, no comments, and
names that begin with a letter. Where a clause has no other quotes, no comments and no other
names, it sees the clause as it is cut into tokens: each token ends where no quote is open, and
a parameter with a number or a name is seen.
-/

set_option autoImplicit false

namespace ObsCatalog

open Sql (Token)
open Sql.Token (gap first numeral namedParameter parameterName quotedBody isNameChar isNameStart)

namespace Filter

namespace Mark

/-- A quote, a comment or a parameter that the scan does not know of begins here. -/
def isOverlooked (m : Mark) : Bool :=
  ['`', '[', '#'].contains m.char || (m.char = '-' && m.next = some '-') ||
    (m.char = '/' && m.next = some '*') ||
    ([':', '@', '$'].contains m.char &&
      m.next.elim false fun c => c.isDigit || c == '$' || 128 ≤ c.toNat)

def isHarmless (m : Mark) : Bool := !m.isPositional && !m.isOverlooked

/-- What is harmless with more text after it is harmless at the end of the text. -/
theorem isHarmless_of_before {m : Mark} {next : Option Char}
    (harmless : (m.before next).isHarmless) : m.isHarmless := by
  obtain ⟨place, char, _ | c⟩ := m
  · simp_all [isHarmless, isPositional, isOverlooked, before]
  · exact harmless

end Mark

/-- Nothing in a text outside of quotes is harmful. -/
def IsClean (cs : List Char) : Prop := ∀ m ∈ marks none 0 cs, m.isHarmless

variable {cs ds : List Char}

theorem IsClean.of_append (clean : IsClean (cs ++ ds)) : IsClean cs := by
  intro m member
  rw [IsClean, marks_append] at clean
  have before := clean (m.before ds.head?)
    (List.mem_append_left _ (List.mem_map.2 ⟨m, member, rfl⟩))
  exact Mark.isHarmless_of_before before

/-- What is left of a clean text after a part that leaves no quote open is clean. -/
theorem IsClean.rest (clean : IsClean (cs ++ ds)) (closed : quoteLeft none cs = none) :
    IsClean ds := by
  intro m member
  rw [IsClean, marks_append, closed, Nat.zero_add, ← Nat.zero_add cs.length, marks_shift] at clean
  exact clean (m.shift cs.length) (List.mem_append_right _ (List.mem_map.2 ⟨m, member, rfl⟩))

theorem IsClean.drop (clean : IsClean cs) {n : Nat} (closed : quoteLeft none (cs.take n) = none) :
    IsClean (cs.drop n) := by
  rw [← List.take_append_drop n cs] at clean
  exact clean.rest closed

theorem IsClean.head {c : Char} (clean : IsClean (c :: cs)) (unquoted : quoteAfter none c = none) :
    Mark.isHarmless ⟨0, c, cs.head?⟩ := by
  refine clean _ ?_
  simp [marks, unquoted]

end Filter

namespace Sql.Token

open ObsCatalog.Filter (IsClean Mark beginsPositional isQuote quoteAfter quoteAfter_of_isQuote
  quoteAfter_of_not_isQuote quoteLeft quoteLeft_append quoteLeft_of_not_isQuote)

def isNumeralChar (c : Char) : Bool := c.isDigit || ['.', 'e', 'E', '+', '-'].contains c

theorem not_isQuote_of {p : Char → Bool} (single : p '\'' = false) (double : p '"' = false)
    {c : Char} (known : p c) : isQuote c = false := by
  by_contra quote
  simp only [isQuote, Bool.not_eq_false, Bool.or_eq_true, decide_eq_true_eq] at quote
  rcases quote with rfl | rfl
  · simp [single] at known
  · simp [double] at known

/-- Characters of a number stand before the rest of a text. -/
def Passes (cs rest : List Char) : Prop :=
  ∃ taken, cs = taken ++ rest ∧ ∀ c ∈ taken, isNumeralChar c

theorem Passes.refl (cs : List Char) : Passes cs cs := ⟨[], rfl, nofun⟩

theorem Passes.cons {c : Char} {cs rest : List Char} (numeral : isNumeralChar c)
    (passes : Passes cs rest) : Passes (c :: cs) rest := by
  obtain ⟨taken, rfl, all⟩ := passes
  exact ⟨c :: taken, rfl, List.forall_mem_cons.2 ⟨numeral, all⟩⟩

theorem Passes.trans {cs ds rest : List Char} (first : Passes cs ds) (second : Passes ds rest) :
    Passes cs rest := by
  obtain ⟨taken, rfl, all⟩ := first
  obtain ⟨further, rfl, others⟩ := second
  exact ⟨taken ++ further, (List.append_assoc ..).symm, List.forall_mem_append.2 ⟨all, others⟩⟩

theorem passes_digits (cs : List Char) : Passes cs (Text.takeDigits cs.length cs).2 := by
  refine ⟨cs.takeWhile Char.isDigit, ?_, fun c member => ?_⟩
  · have prefixed := List.prefix_iff_eq_append.1 (List.takeWhile_prefix (l := cs) Char.isDigit)
    simpa only [Text.takeDigits, List.take_length] using prefixed.symm
  · simp [isNumeralChar, List.mem_takeWhile_imp member]

theorem passes_fraction (cs : List Char) : Passes cs (fractionAfter cs).2 := by
  cases cs with
  | nil => exact .refl []
  | cons c cs =>
    by_cases point : c = '.'
    · subst point
      exact (passes_digits cs).cons rfl
    · simpa [fractionAfter, point] using Passes.refl (c :: cs)

theorem passes_exponentDigits {negative : Bool} {cs rest : List Char} {n : Int}
    (found : exponentDigits negative cs = some (n, rest)) : Passes cs rest := by
  unfold exponentDigits at found
  split at found
  · cases found
  · next taken =>
    cases found
    have passes := passes_digits cs
    rwa [taken] at passes

theorem passes_exponent {cs rest : List Char} {n : Int}
    (found : Real.Literal.exponentAfter cs = some (n, rest)) : Passes cs rest := by
  rw [exponentAfter_eq] at found
  split at found
  · exact (passes_exponentDigits found).cons rfl
  · exact (passes_exponentDigits found).cons rfl
  · exact passes_exponentDigits found

theorem passes_withExponent (whole : List Char) (fraction : Option (List Char))
    (cs : List Char) : Passes cs (withExponent whole fraction cs).2 := by
  unfold withExponent
  split
  · next e after =>
    split
    · next letter =>
      split
      · next found =>
        exact (passes_exponent found).cons (by rcases letter with rfl | rfl <;> rfl)
      · exact .refl _
    · exact .refl _
  · exact .refl _

theorem passes_scan (cs : List Char) : Passes cs (Real.Literal.scan cs).2 := by
  rw [scan_eq]
  exact (passes_digits cs).trans ((passes_fraction _).trans (passes_withExponent ..))

/-! Tokens that end where no quote is open. -/

/-- What is read at the start of a text is no parameter with a number or a name, and it leaves
no quote open. -/
def Ends (cs : List Char) (read : Token × Nat) : Prop :=
  read.1.isAnonymous ∧ (read.1 ≠ .stray → quoteLeft none (cs.take read.2) = none)

theorem ends_stray (cs : List Char) (n : Nat) : Ends cs (.stray, n) :=
  ⟨rfl, fun whole => absurd rfl whole⟩

theorem ends_numeralOf {isDigit : Char → Bool} {read : List Char → Token} {n : Nat}
    {cs : List Char} (anonymous : ∀ cs, (read cs).isAnonymous)
    (plain : ∀ c ∈ cs.take n, isQuote c = false) : Ends cs (numeralOf isDigit read n cs) := by
  simp only [numeralOf]
  split
  · exact ⟨anonymous _, fun _ => quoteLeft_of_not_isQuote plain⟩
  · exact ends_stray _ _

theorem plain_hexLength (cs : List Char) : ∀ c ∈ cs.take (hexLength cs), isQuote c = false := by
  rcases hexLength_cases cs with none | ⟨x, rest, rfl, letter, count⟩
  · rw [none]
    nofun
  · have run := List.prefix_iff_eq_take.1
      (List.takeWhile_prefix (l := rest) fun c => isHexDigit c || c == '_')
    rw [count, List.take_succ_cons, List.take_succ_cons, ← run]
    refine List.forall_mem_cons.2 ⟨rfl, List.forall_mem_cons.2 ⟨?_, fun c member => ?_⟩⟩
    · exact not_isQuote_of (p := (·.toLower = 'x')) (by decide) (by decide) (by simpa using letter)
    · have known := List.mem_takeWhile_imp (p := fun c => isHexDigit c || c == '_') member
      exact not_isQuote_of (p := fun c => isHexDigit c || c == '_') (by decide) (by decide) known

theorem plain_decimalLength (cs : List Char) :
    ∀ c ∈ cs.take (decimalLength cs), isQuote c = false := by
  obtain ⟨taken, split, all⟩ := passes_scan (cs.map fun c => if c = '_' then '0' else c)
  have count : decimalLength cs = taken.length := by
    have lengths := congrArg List.length split
    rw [List.length_map, List.length_append] at lengths
    rw [decimalLength, lengths, Nat.add_sub_cancel]
  have digits : (cs.take (decimalLength cs)).map (fun c => if c = '_' then '0' else c) = taken := by
    rw [List.map_take, split, count, List.take_left]
  intro c member
  have numeral := all _ (digits ▸ List.mem_map_of_mem member)
  by_cases low : c = '_'
  · rw [low]
    rfl
  · rw [if_neg low] at numeral
    exact not_isQuote_of (p := isNumeralChar) rfl rfl numeral

theorem ends_numeral (cs : List Char) : Ends cs (numeral cs) := by
  unfold numeral
  split
  · exact ends_numeralOf (fun _ => rfl) (plain_decimalLength cs)
  · exact ends_numeralOf (fun _ => rfl) (plain_hexLength cs)

theorem quoteLeft_quotedBody {quote : Char} (known : isQuote quote) {rest content : List Char}
    {n : Nat} (found : quotedBody quote rest = some (content, n)) :
    quoteLeft (some quote) (rest.take n) = none := by
  have again := quoteAfter_of_isQuote known
  have closes : quoteAfter (some quote) quote = none := by simp [quoteAfter]
  fun_induction quotedBody quote rest generalizing content n with
  | case1 => cases found
  | case2 =>
    cases found
    exact closes
  | case3 => cases found
  | case4 rest ih =>
    obtain ⟨⟨content, n⟩, inner, same⟩ := Option.map_eq_some_iff.1 found
    cases same
    have left := ih inner
    simp only [quoteLeft, List.take_succ_cons, List.foldl_cons, closes, again] at left ⊢
    exact left
  | case5 d rest single =>
    cases found
    exact closes
  | case6 c d rest inside ih =>
    obtain ⟨⟨content, n⟩, inner, same⟩ := Option.map_eq_some_iff.1 found
    cases same
    have left := ih inner
    have stays : quoteAfter (some quote) c = some quote := by simp [quoteAfter, inside]
    simp only [quoteLeft, List.take_succ_cons, List.foldl_cons, stays] at left ⊢
    exact left

theorem ends_closed {quote : Char} (known : isQuote quote) {make : String → Token}
    (anonymous : ∀ s, (make s).isAnonymous) (rest : List Char) :
    Ends (quote :: rest) (closed make rest (quotedBody quote rest)) := by
  cases found : quotedBody quote rest with
  | none => exact ends_stray _ _
  | some body =>
    refine ⟨anonymous _, fun _ => ?_⟩
    have opens := quoteAfter_of_isQuote known
    have left := quoteLeft_quotedBody known found
    simpa only [closed, quoteLeft, List.take_succ_cons, List.foldl_cons, opens] using left

/-- A run of characters other than a quote ends with one, unless it is all that there is. -/
theorem split_at_quote {quote : Char} {cs : List Char}
    (more : (cs.takeWhile (· != quote)).length < cs.length) :
    ∃ after, cs = cs.takeWhile (· != quote) ++ quote :: after := by
  induction cs with
  | nil => cases more
  | cons c cs ih =>
    by_cases ends : c = quote
    · subst ends
      exact ⟨cs, by simp⟩
    · rw [List.takeWhile_cons_of_pos (by simpa using ends)] at more ⊢
      obtain ⟨after, same⟩ := ih (Nat.lt_of_succ_lt_succ more)
      exact ⟨after, congrArg (c :: ·) same⟩

theorem quoteLeft_inside {quote : Char} {cs : List Char} (inside : ∀ c ∈ cs, c ≠ quote) :
    quoteLeft (some quote) cs = some quote := by
  induction cs with
  | nil => rfl
  | cons c cs ih =>
    obtain ⟨other, others⟩ := List.forall_mem_cons.1 inside
    rw [quoteLeft, List.foldl_cons, quoteAfter, if_neg other]
    exact ih others

theorem ends_blobLiteral {c : Char} {rest : List Char} (blob : beginsBlob c rest) :
    Ends (c :: rest) (blobLiteral rest) := by
  simp only [beginsBlob, Bool.and_eq_true, decide_eq_true_eq] at blob
  obtain ⟨mark, quote⟩ := blob
  obtain ⟨cs, rfl⟩ : ∃ cs, rest = '\'' :: cs := by
    cases rest with
    | nil => cases quote
    | cons d cs =>
      cases quote
      exact ⟨cs, rfl⟩
  have unquoted : isQuote c = false :=
    not_isQuote_of (p := (·.toLower = 'x')) (by decide) (by decide) (by simpa using mark)
  simp only [blobLiteral, List.drop_succ_cons, List.drop_zero, List.length_cons]
  split
  · next ends =>
    split
    · refine ⟨rfl, fun _ => ?_⟩
      obtain ⟨after, whole⟩ := split_at_quote (Nat.lt_of_succ_lt_succ ends)
      have inside : ∀ d ∈ cs.takeWhile (· != '\''), d ≠ '\'' := fun d member => by
        simpa using List.mem_takeWhile_imp member
      generalize cs.takeWhile (· != '\'') = body at whole inside ⊢
      subst whole
      -- The mark and the quote that opens, digits without a quote, and the quote that closes.
      have split : c :: '\'' :: (body ++ '\'' :: after) =
          ([c, '\''] ++ body ++ ['\'']) ++ after := by
        simp
      have opens : quoteLeft none [c, '\''] = some '\'' := by
        rw [quoteLeft, List.foldl_cons, quoteAfter_of_not_isQuote unquoted]
        rfl
      rw [split, List.take_left' (by simp), quoteLeft_append, quoteLeft_append, opens,
        quoteLeft_inside inside]
      rfl
    · exact ends_stray _ _
  · exact ends_stray _ _

theorem harmful_of_isNameChar {c d : Char} (mark : c = ':' ∨ c = '@' ∨ c = '$')
    (name : isNameChar d) : Mark.isHarmless ⟨0, c, some d⟩ = false := by
  simp only [isNameChar, isNameStart, Bool.or_eq_true, beq_iff_eq, decide_eq_true_eq] at name
  -- A letter or an underscore makes a placeholder that is seen, anything else one that is not.
  rcases mark with rfl | rfl | rfl <;>
    rcases name with (((letter | low) | high) | digit) | dollar <;>
    simp [*, Mark.isHarmless, Mark.isPositional, Mark.isOverlooked, beginsPositional]

theorem parameterName_clean {c : Char} {rest : List Char} (mark : c = ':' ∨ c = '@' ∨ c = '$')
    (clean : IsClean (c :: rest)) : (parameterName rest).2 = 0 := by
  have plain {c : Char} (mark : c = ':' ∨ c = '@' ∨ c = '$') : isQuote c = false := by
    rcases mark with rfl | rfl | rfl <;> rfl
  fun_induction parameterName rest generalizing c with
  | case1 rest n proper found ih =>
    -- What follows a pair of colons follows the second one of them.
    have before : IsClean ([c, ':'] ++ ':' :: rest) := clean
    have unquoted : quoteLeft none [c, ':'] = none :=
      quoteLeft_of_not_isQuote (by simpa using ⟨plain mark, rfl⟩)
    have none := ih (.inl rfl) (before.rest unquoted)
    rwa [found] at none
  | case2 d rest single name n proper found ih =>
    have harmless := clean.head (quoteAfter_of_not_isQuote (plain mark))
    rw [List.head?_cons, harmful_of_isNameChar mark name] at harmless
    cases harmless
  | case3 => rfl
  | case4 => rfl

theorem ends_namedParameter {c : Char} {rest : List Char} (mark : c = ':' ∨ c = '@' ∨ c = '$')
    (clean : IsClean (c :: rest)) : Ends (c :: rest) (namedParameter c rest) := by
  simp only [namedParameter, parameterName_clean mark clean, if_true]
  exact ends_stray _ _

theorem quoteLeft_takeWhile {p : Char → Bool} (single : p '\'' = false) (double : p '"' = false)
    {c : Char} (first : p c) (rest : List Char) :
    quoteLeft none ((c :: rest).take (1 + (rest.takeWhile p).length)) = none := by
  have run : rest.take (rest.takeWhile p).length = rest.takeWhile p :=
    (List.prefix_iff_eq_take.1 (List.takeWhile_prefix p)).symm
  rw [Nat.add_comm, List.take_succ_cons, run]
  refine quoteLeft_of_not_isQuote fun d member => not_isQuote_of single double ?_
  rcases List.mem_cons.1 member with rfl | member
  · exact first
  · exact List.mem_takeWhile_imp member

theorem ends_word {c : Char} (start : isNameStart c) (rest : List Char) :
    Ends (c :: rest) (ofWord (c :: rest.takeWhile isNameChar),
      (c :: rest.takeWhile isNameChar).length) := by
  have name : isNameChar c := by simp [isNameChar, start]
  refine ⟨?_, fun _ => ?_⟩
  · unfold ofWord
    split <;> rfl
  · rw [List.length_cons, Nat.add_comm]
    exact quoteLeft_takeWhile (by decide) (by decide) name rest

theorem ends_questionMark {rest : List Char} (clean : IsClean ('?' :: rest)) :
    Ends ('?' :: rest)
      (if (rest.takeWhile Char.isDigit).isEmpty then (.parameter .anonymous 0, 1)
        else (.parameter (.numbered (Text.number (rest.takeWhile Char.isDigit))) 0,
          (rest.takeWhile Char.isDigit).length + 1)) := by
  have none : rest.takeWhile Char.isDigit = [] := by
    cases rest with
    | nil => rfl
    | cons d rest =>
      have harmless := clean.head rfl
      refine List.takeWhile_cons_of_neg fun digit => ?_
      simp [Mark.isHarmless, Mark.isPositional, beginsPositional, digit]
        at harmless
  rw [none]
  exact ⟨rfl, fun _ => rfl⟩

theorem ends_first {c : Char} {rest : List Char} (clean : IsClean (c :: rest)) :
    Ends (c :: rest) (first c rest) := by
  -- What begins with a mark that is overlooked does not come up.
  have heeded (unquoted : quoteAfter none c = none) :
      ['`', '[', '#'].contains c = false := by
    have harmless := clean.head unquoted
    simp only [Mark.isHarmless, Mark.isOverlooked, Bool.and_eq_true,
      Bool.not_eq_true', Bool.or_eq_false_iff] at harmless
    exact harmless.2.1.1.1
  have number := ends_numeral (c :: rest)
  unfold first
  generalize numeral (c :: rest) = read at number ⊢
  split
  · next blob => exact ends_blobLiteral blob
  split
  · next start => exact ends_word start rest
  split
  · exact number
  split
  case h_1 => exact ends_closed rfl (fun _ => rfl) rest
  case h_2 => exact ends_closed rfl (fun _ => rfl) rest
  case h_3 => cases heeded rfl
  case h_4 => cases heeded rfl
  case h_5 => exact ends_questionMark clean
  case h_6 => exact ends_namedParameter (.inl rfl) clean
  case h_7 => exact ends_namedParameter (.inr (.inl rfl)) clean
  case h_8 => exact ends_namedParameter (.inr (.inr rfl)) clean
  case h_9 => cases heeded rfl
  case h_10 =>
    split
    · exact number
    · exact ⟨rfl, fun _ => rfl⟩
  case h_37 => exact ends_stray _ _
  -- All other tokens are operators.
  all_goals exact ⟨rfl, fun _ => rfl⟩

theorem quoteLeft_gap {cs : List Char} (clean : IsClean cs) :
    quoteLeft none (cs.take (gap cs)) = none := by
  fun_cases gap cs with
  | case1 rest =>
    have harmless := clean.head rfl
    simp [Mark.isHarmless, Mark.isOverlooked] at harmless
  | case2 c rest =>
    have harmless := clean.head rfl
    simp [Mark.isHarmless, Mark.isOverlooked] at harmless
  | case3 c rest line block blank =>
    exact quoteLeft_takeWhile (p := isFurtherSpace) rfl rfl (by simp [isFurtherSpace, blank]) rest
  | case4 rest line block solid => rfl
  | case5 => rfl
  | case6 => rfl

theorem anonymous_scan {steps offset : Nat} {cs : List Char} (clean : IsClean cs) :
    Anonymous (scan steps offset cs) := by
  induction steps generalizing offset cs with
  | zero => exact anonymous_nil
  | succ steps ih =>
    cases cs with
    | nil => exact anonymous_nil
    | cons c rest =>
      have blank := quoteLeft_gap clean
      obtain ⟨anonymous, closes⟩ := ends_first clean
      simp only [scan]
      split
      · split
        · next stray =>
          exact anonymous_cons.2 ⟨anonymous, anonymous_nil⟩
        · next whole => exact anonymous_cons.2 ⟨anonymous, ih (clean.drop (closes whole))⟩
      · exact ih (clean.drop blank)

/-- The tokens of a clean text have no parameters with a number or a name. -/
theorem anonymous_lexemes {text : String} (clean : IsClean text.toList) :
    Anonymous (lexemes text) := by
  rw [← List.takeWhile_append_dropWhile (p := (· != '\x00')) (l := text.toList)] at clean
  exact anonymous_scan clean.of_append

end Sql.Token

namespace Filter

variable {a b c : Filter}

/-- Filters that are joined have no parameters with a number or a name, as long as nothing in
their clauses is overlooked. -/
theorem anonymous_of_and (done : a.and b = .ok c) {clause : String}
    (part : clause = a.clause ∨ clause = b.clause)
    (heeded : ∀ m ∈ marks none 0 clause.toList, m.isOverlooked = false) :
    Token.Anonymous (Sql.lexemes clause) := by
  obtain ⟨left, right, -⟩ := and_eq_ok_iff.1 done
  have plain : hasPositional clause = false := by rcases part with rfl | rfl <;> assumption
  refine Token.anonymous_lexemes fun m member => ?_
  have unnumbered : m.isPositional = false := by
    rw [hasPositional, positionalFrom_eq none 0] at plain
    simpa using List.any_eq_false.1 plain m member
  simp [Mark.isHarmless, unnumbered, heeded m member]

theorem anonymous_of_and_quoted :
    ∃ a b c : Filter, a.and b = .ok c ∧ a.clause = "name <> '[?1' AND id < ?" ∧
      Token.Anonymous (Sql.lexemes a.clause) := by
  let a : Filter := ⟨"name <> '[?1' AND id < ?", [.integer 3]⟩
  let b : Filter := ⟨"name = ?", [.text "A"]⟩
  have plain : hasPositional a.clause = false ∧ hasPositional b.clause = false := by
    decide +kernel
  have done := and_eq_ok_iff.2 ⟨plain.1, plain.2, rfl⟩
  exact ⟨a, b, _, done, rfl, anonymous_of_and done (.inl rfl) (by decide +kernel)⟩

/-- A filter is joined with another one though its clause has a parameter with a number or a
name. -/
def Slips (a b : Filter) : Prop :=
  (∃ c, a.and b = .ok c) ∧ ¬ Token.Anonymous (Sql.lexemes a.clause)

theorem slips_of (first : hasPositional a.clause = false) (second : hasPositional b.clause = false)
    (numbered : (Sql.lexemes a.clause).any fun t => !t.token.isAnonymous) : Slips a b := by
  refine ⟨⟨_, and_eq_ok_iff.2 ⟨first, second, rfl⟩⟩, fun anonymous => ?_⟩
  obtain ⟨t, known, other⟩ := List.any_eq_true.1 numbered
  simp [anonymous t known] at other

/-- A number after a colon is overlooked, and so is what comes after a comment or a name in
brackets with an apostrophe in it. -/
theorem and_admits_numbered :
    Slips ⟨"id = :1", [.integer 1]⟩ ⟨"name = ?", [.text "rtp"]⟩ ∧
    Slips ⟨"id = ? /* it's */ AND name = ?2", [.integer 1, .text "rtp"]⟩
      ⟨"authenticator = ?", [.text "tok"]⟩ ∧
    Slips ⟨"[it's] = ?1", [.integer 1]⟩ ⟨"authenticator = ?", [.text "tok"]⟩ := by
  refine ⟨slips_of ?_ ?_ ?_, slips_of ?_ ?_ ?_, slips_of ?_ ?_ ?_⟩ <;> decide +kernel

end Filter

end ObsCatalog
