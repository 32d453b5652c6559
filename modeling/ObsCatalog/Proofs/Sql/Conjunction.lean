import ObsCatalog.Proofs.Sql.Condition
import ObsCatalog.Proofs.Sql.Token
import Mathlib.Data.List.TakeWhile

/-! Conjunctions of conditions.

Two conditions in parentheses with `AND` between them make a condition that is true where both
are. The parameters of the second one come after those of the first one.
-/

set_option autoImplicit false

namespace ObsCatalog.Sql

open Token (Cut shifted)

namespace Token

/-- The token is no parameter with a number or a name. -/
def isAnonymous : Token → Bool
  | .parameter .anonymous _ => true
  | .parameter _ _ => false
  | _ => true

def isParameter : Token → Bool
  | .parameter _ _ => true
  | _ => false

/-- The count of parameters among tokens. -/
def parameters (ts : List Lexeme) : Nat := ts.countP (·.token.isParameter)

/-- Tokens without parameters that have a number or a name. -/
def Anonymous (ts : List Lexeme) : Prop := ∀ t ∈ ts, t.token.isAnonymous

variable {t : Lexeme} {ts : List Lexeme}

theorem anonymous_nil : Anonymous [] := List.forall_mem_nil _

theorem anonymous_cons : Anonymous (t :: ts) ↔ t.token.isAnonymous ∧ Anonymous ts :=
  List.forall_mem_cons

theorem parameters_parameter (p : Placeholder) (index : Nat) (spelling : String) (offset : Nat)
    (ts : List Lexeme) :
    parameters (⟨.parameter p index, spelling, offset⟩ :: ts) = parameters ts + 1 :=
  List.countP_cons_of_pos rfl

theorem anonymous_append {us : List Lexeme} :
    Anonymous (ts ++ us) ↔ Anonymous ts ∧ Anonymous us :=
  List.forall_mem_append

theorem anonymous_shifted {k : Nat} : Anonymous (ts.map (shifted k)) ↔ Anonymous ts :=
  List.forall_mem_map

theorem parameters_shifted (k : Nat) (ts : List Lexeme) :
    parameters (ts.map (shifted k)) = parameters ts :=
  List.countP_map

end Token

namespace Numbering

variable {s : Numbering} {ts : List Lexeme}

theorem apply_append (anonymous : Token.Anonymous ts) (next : List Lexeme) :
    s.apply (ts ++ next) =
      s.apply ts ++ Numbering.apply ⟨s.count + Token.parameters ts, s.names⟩ next := by
  induction ts generalizing s with
  | nil => rfl
  | cons t ts ih =>
    obtain ⟨this, rest⟩ := Token.anonymous_cons.1 anonymous
    obtain ⟨token, spelling, offset⟩ := t
    cases token with
    | parameter p index =>
      cases p with
      | anonymous =>
        refine congrArg (_ :: ·) ((ih rest).trans ?_)
        rw [Token.parameters_parameter, Nat.add_right_comm]
        rfl
      | _ => cases this
    | _ => exact congrArg (_ :: ·) (ih rest)

/-- Tokens that are moved get the indices that the frame gives them if the parameters before
them are as many more as the frame adds. -/
theorem apply_shifted {F : Condition.Frame} {s' : Numbering} (anonymous : Token.Anonymous ts)
    (index : ∀ i, s.count < i → i ≤ s.count + Token.parameters ts →
      F.index i + s.count = i + s'.count) :
    s'.apply (ts.map (shifted F.places)) = (s.apply ts).map F.lexeme := by
  induction ts generalizing s s' with
  | nil => rfl
  | cons t ts ih =>
    obtain ⟨this, rest⟩ := Token.anonymous_cons.1 anonymous
    obtain ⟨token, spelling, offset⟩ := t
    cases token with
    | parameter p i =>
      cases p with
      | anonymous =>
        rw [Token.parameters_parameter] at index
        have next : F.index (s.count + 1) = s'.count + 1 := by
          have moved := index (s.count + 1) (by omega) (by omega)
          omega
        -- Both counts go up by one, so that what follows is renumbered by the same distance.
        have others : Numbering.apply ⟨s'.count + 1, s'.names⟩ (ts.map (shifted F.places)) =
            (Numbering.apply ⟨s.count + 1, s.names⟩ ts).map F.lexeme := by
          refine ih rest fun i above below => ?_
          have moved := index i (Nat.lt_of_succ_lt above) (by simp only at below; omega)
          show F.index i + (s.count + 1) = i + (s'.count + 1)
          omega
        show (⟨.parameter .anonymous (s'.count + 1), spelling, offset + F.places⟩ : Lexeme) ::
            Numbering.apply ⟨s'.count + 1, s'.names⟩ (ts.map (shifted F.places)) =
          ⟨.parameter .anonymous (F.index (s.count + 1)), spelling, offset + F.places⟩ ::
            (Numbering.apply ⟨s.count + 1, s.names⟩ ts).map F.lexeme
        rw [others, next]
      | _ => cases this
    | _ => exact congrArg (_ :: ·) (ih rest index)

theorem begins_apply (begins : ∀ t ∈ ts.head?, Condition.beginsQuery t.token = false) :
    ∀ t ∈ (s.apply ts).head?, Condition.beginsQuery t.token = false := by
  rcases ts with _ | ⟨⟨token, spelling, offset⟩, ts⟩
  · exact begins
  · cases token with
    | parameter p index =>
      rintro _ ⟨⟩
      rfl
    | _ => exact begins

theorem parameterCount_apply (anonymous : Token.Anonymous ts) :
    Condition.parameterCount (s.apply ts) =
      if Token.parameters ts = 0 then 0 else s.count + Token.parameters ts := by
  induction ts generalizing s with
  | nil => rfl
  | cons t ts ih =>
    obtain ⟨this, rest⟩ := Token.anonymous_cons.1 anonymous
    obtain ⟨token, spelling, offset⟩ := t
    cases token with
    | parameter p index =>
      cases p with
      | anonymous =>
        show max (s.count + 1) (Condition.parameterCount (Numbering.apply ⟨s.count + 1, _⟩ ts)) = _
        rw [ih rest, Token.parameters_parameter, if_neg (Nat.succ_ne_zero _)]
        simp only
        split <;> omega
      | _ => cases this
    | _ => exact ih rest

theorem badParameter?_apply (anonymous : Token.Anonymous ts) :
    Condition.badParameter? (s.apply ts) = none := by
  induction ts generalizing s with
  | nil => rfl
  | cons t ts ih =>
    obtain ⟨this, rest⟩ := Token.anonymous_cons.1 anonymous
    obtain ⟨token, spelling, offset⟩ := t
    cases token with
    | parameter p index =>
      cases p with
      | anonymous => exact ih rest
      | _ => cases this
    | _ => exact ih rest

end Numbering

namespace Condition

/-- A text that is one whole condition by itself: nothing in it is left open at its end, its
parameters have neither numbers nor names, and its tokens make one expression. The word `with`
may be the name of a column, but after a parenthesis it begins a query, so that a condition does
not begin with it. -/
structure Whole (clause : String) (ts : List Lexeme) (e : Parsed) : Prop where
  clean : '\x00' ∉ clause.toList
  cut : Cut 0 clause.toList ts
  begins : ∀ t ∈ ts.head?, beginsQuery t.token = false
  anonymous : Token.Anonymous ts
  parsed : expression (Numbering.empty.apply ts) = .ok (e, [])

def joined (a b : String) : String := "(" ++ a ++ ") AND (" ++ b ++ ")"

variable {a b : String} {ts us : List Lexeme} {d e : Parsed}

theorem Whole.lexemes (whole : Whole a ts d) : lexemes a = ts := by
  have clean : a.toList.takeWhile (· != '\x00') = a.toList := by
    rw [List.takeWhile_eq_self_iff]
    intro c member
    have other : c ≠ '\x00' := fun same => whole.clean (same ▸ member)
    simpa using other
  unfold Sql.lexemes
  rw [clean]
  exact whole.cut.scan (Nat.le_refl _)

theorem parameterCount_anonymous (anonymous : Token.Anonymous ts) :
    parameterCount (Numbering.empty.apply ts) = Token.parameters ts := by
  rw [Numbering.parameterCount_apply anonymous]
  split
  · next none => exact none.symm
  · exact Nat.zero_add _

theorem Whole.read (whole : Whole a ts d) (statement : String) (base : Nat) :
    read statement base a = .ok ⟨d, Token.parameters ts⟩ := by
  have all (us : List Lexeme) : us.take (us.length - ([] : List Lexeme).length) = us := by simp
  simp only [Condition.read, whole.lexemes, whole.parsed, atEnd, all, if_true,
    Numbering.badParameter?_apply whole.anonymous, parameterCount_anonymous whole.anonymous]

def isWhole (clause : String) : Bool :=
  match Token.cutOf clause.toList.length 0 clause.toList with
  | none => false
  | some ts =>
    !clause.toList.contains '\x00' && (ts.head?.all fun t => !beginsQuery t.token) &&
      (ts.all fun t => t.token.isAnonymous) &&
        match expression (Numbering.empty.apply ts) with
        | .ok (_, []) => true
        | _ => false

theorem isWhole_iff : isWhole a ↔ ∃ ts e, Whole a ts e := by
  constructor
  · intro whole
    unfold isWhole at whole
    split at whole
    · cases whole
    next ts found =>
    simp only [Bool.and_eq_true] at whole
    obtain ⟨⟨⟨clean, begins⟩, anonymous⟩, parsed⟩ := whole
    split at parsed
    · next e whole =>
      refine ⟨ts, e, by simpa using clean, .of_cutOf found, fun t head => ?_, ?_, whole⟩
      · rw [head] at begins
        simpa using begins
      · exact List.all_eq_true.1 anonymous
    · cases parsed
  · rintro ⟨ts, e, whole⟩
    have clean : a.toList.contains '\x00' = false := by simpa using whole.clean
    have begins : (ts.head?.all fun t => !beginsQuery t.token) := by
      cases ts with
      | nil => rfl
      | cons t ts =>
        show (!beginsQuery t.token) = true
        rw [whole.begins t rfl]
        rfl
    have anonymous : ts.all fun t => t.token.isAnonymous := List.all_eq_true.2 whole.anonymous
    simp only [isWhole, whole.cut.cutOf_eq (Nat.le_refl _), clean, begins, anonymous,
      whole.parsed]
    rfl

def secondPlace (a : String) : Nat := 1 + Token.byteCount a.toList + 7

/-- The tokens of a conjunction are those of both texts and those around them. -/
def joinedLexemes (a b : String) (ts us : List Lexeme) : List Lexeme :=
  ⟨.leftParen, "(", 0⟩ :: (ts.map (shifted 1) ++
    ⟨.rightParen, ")", 1 + Token.byteCount a.toList⟩ ::
    ⟨.keyword .and, "AND", 1 + Token.byteCount a.toList + 2⟩ ::
    ⟨.leftParen, "(", 1 + Token.byteCount a.toList + 6⟩ ::
    (us.map (shifted (secondPlace a)) ++
      [⟨.rightParen, ")", secondPlace a + Token.byteCount b.toList⟩]))

/-- What stands around the second text. The parameters of the first one come before its own. -/
def secondFrame (a b : String) (ts us : List Lexeme) : Frame where
  places := secondPlace a
  index i := if 1 ≤ i ∧ i ≤ Token.parameters us then i + Token.parameters ts else 0
  spelling := ")"
  offset := secondPlace a + Token.byteCount b.toList
  more := []

def firstFrame (a b : String) (ts us : List Lexeme) : Frame where
  places := 1
  index i := if 1 ≤ i ∧ i ≤ Token.parameters ts then i else 0
  spelling := ")"
  offset := 1 + Token.byteCount a.toList
  more :=
    ⟨.keyword .and, "AND", 1 + Token.byteCount a.toList + 2⟩ ::
    ⟨.leftParen, "(", 1 + Token.byteCount a.toList + 6⟩ ::
    (secondFrame a b ts us).around (Numbering.empty.apply us)

theorem cut_joined (left : Cut 0 a.toList ts) (right : Cut 0 b.toList us) :
    Cut 0 (joined a b).toList (joinedLexemes a b ts us) := by
  have text : (joined a b).toList = '(' :: (a.toList ++
      ')' :: ' ' :: 'A' :: 'N' :: 'D' :: ' ' :: '(' :: (b.toList ++ [')'])) := by
    simp [joined]
  have second := right.shifted (secondPlace a)
  rw [Nat.zero_add] at second
  rw [text]
  refine @Cut.token _ '(' [] _ _ _ rfl rfl rfl nofun ((left.shifted 1).close ?_)
  refine @Cut.token _ ')' [] _ _ _ rfl rfl rfl nofun (@Cut.gap _ ' ' [] _ _ rfl rfl ?_)
  refine @Cut.token _ 'A' ['N', 'D'] _ _ _ rfl rfl rfl nofun (@Cut.gap _ ' ' [] _ _ rfl rfl ?_)
  refine @Cut.token _ '(' [] _ _ _ rfl rfl rfl nofun (second.close ?_)
  exact @Cut.token _ ')' [] _ _ _ rfl rfl rfl nofun (.nil _)

theorem anonymous_joined (left : Token.Anonymous ts) (right : Token.Anonymous us) :
    Token.Anonymous (joinedLexemes a b ts us) := by
  simp [joinedLexemes, Token.anonymous_cons, Token.anonymous_append, Token.anonymous_shifted,
    Token.anonymous_nil, Token.isAnonymous, left, right]

theorem parameters_joined (a b : String) (ts us : List Lexeme) :
    Token.parameters (joinedLexemes a b ts us) = Token.parameters ts + Token.parameters us := by
  simp [joinedLexemes, Token.parameters, Token.isParameter, Function.comp_def, shifted]

theorem apply_framed {F : Frame} {s : Numbering} (anonymous : Token.Anonymous ts)
    (index : ∀ i, 1 ≤ i → i ≤ Token.parameters ts → F.index i = i + s.count)
    (spelling : String) (offset : Nat) (next : List Lexeme) :
    s.apply (ts.map (shifted F.places) ++ ⟨.rightParen, spelling, offset⟩ :: next) =
      (Numbering.empty.apply ts).map F.lexeme ++ ⟨.rightParen, spelling, offset⟩ ::
        Numbering.apply ⟨s.count + Token.parameters ts, s.names⟩ next := by
  have moved : s.apply (ts.map (shifted F.places)) =
      (Numbering.empty.apply ts).map F.lexeme := by
    refine Numbering.apply_shifted anonymous fun i above below => ?_
    exact index i above (Nat.zero_add (Token.parameters ts) ▸ below)
  rw [Numbering.apply_append (Token.anonymous_shifted.2 anonymous), moved,
    Token.parameters_shifted]
  rfl

/-- The parameters of the second text get their indices after those of the first one. -/
theorem apply_joined (left : Token.Anonymous ts) (right : Token.Anonymous us) :
    Numbering.empty.apply (joinedLexemes a b ts us) =
      ⟨.leftParen, "(", 0⟩ ::
        (firstFrame a b ts us).around (Numbering.empty.apply ts) := by
  have second := apply_framed (F := secondFrame a b ts us) (s := ⟨0 + Token.parameters ts, []⟩)
    right (fun i above below => (if_pos ⟨above, below⟩).trans (by rw [Nat.zero_add]))
    ")" (secondPlace a + Token.byteCount b.toList) []
  have first := apply_framed (F := firstFrame a b ts us) (s := .empty) left
    fun i above below => if_pos ⟨above, below⟩
  refine congrArg (_ :: ·) ((first _ _ _).trans ?_)
  exact congrArg (fun rest => _ ++ _ :: _ :: _ :: rest) second

theorem expression_joined {F G : Frame} {i j : Nat}
    (left : expression ts = .ok (d, [])) (right : expression us = .ok (e, []))
    (beginsLeft : ∀ t ∈ ts.head?, beginsQuery t.token = false)
    (beginsRight : ∀ t ∈ us.head?, beginsQuery t.token = false)
    (next : F.more = ⟨.keyword .and, "AND", i⟩ :: ⟨.leftParen, "(", j⟩ :: G.around us)
    (last : G.more = []) {spelling : String} {offset : Nat} :
    expression (⟨.leftParen, spelling, offset⟩ :: F.around ts) =
      .ok (conjunction (F.expr d) (G.expr e), []) := by
  have longer : ts.length + us.length + 4 ≤ (F.around ts).length := by
    simp [Frame.around, next, last]
    omega
  -- The steps that the whole text allows are enough for either part.
  obtain ⟨n, steps⟩ : ∃ n, n = 4 * (F.around ts).length + 2 := ⟨_, rfl⟩
  have first : climb (n + 6) orLevel (⟨.leftParen, spelling, offset⟩ :: F.around ts) =
      follow (n + 5) orLevel (F.expr d) F.more :=
    climb_group left beginsLeft (by omega) orLevel
  have second : climb (n + 4) notLevel (⟨.leftParen, "(", j⟩ :: G.around us) =
      follow (n + 3) notLevel (G.expr e) G.more :=
    climb_group right beginsRight (by omega) notLevel
  have enough : 4 * (⟨.leftParen, spelling, offset⟩ :: F.around ts : List Lexeme).length + 4 =
      n + 6 := by
    rw [List.length_cons, steps]
    omega
  rw [expression, enough, first, next]
  show (climb (n + 4) notLevel (⟨.leftParen, "(", j⟩ :: G.around us) >>= fun last =>
    follow (n + 4) orLevel (conjunction (F.expr d) last.1) last.2) = _
  rw [second, last]
  rfl

theorem Whole.joined (left : Whole a ts d) (right : Whole b us e) :
    Whole (joined a b) (joinedLexemes a b ts us)
      (conjunction ((firstFrame a b ts us).expr d) ((secondFrame a b ts us).expr e)) where
  clean := by
    simp [Condition.joined, left.clean, right.clean]
  cut := cut_joined left.cut right.cut
  begins := by
    rintro _ ⟨⟩
    rfl
  anonymous := anonymous_joined left.anonymous right.anonymous
  parsed := by
    rw [apply_joined left.anonymous right.anonymous]
    exact expression_joined left.parsed right.parsed (Numbering.begins_apply left.begins)
      (Numbering.begins_apply right.begins) rfl rfl

end Condition

end ObsCatalog.Sql
