import ObsCatalog.Proofs.Sql.Database
import ObsCatalog.Proofs.Sql.Expr

/-! Conditions in parentheses.

Tokens that make a whole condition are read as the same expression where a closing parenthesis
comes after them. Only the places of names and the indices of parameters differ, as they do in
the tokens.
-/

set_option autoImplicit false

namespace ObsCatalog.Sql

namespace Condition

/-- What comes to stand around tokens: so much text before them that their places move and
their parameters get other indices, and after them a closing parenthesis and more. -/
structure Frame where
  places : Nat
  index : Nat → Nat
  spelling : String
  offset : Nat
  more : List Lexeme

namespace Frame

def token (F : Frame) : Token → Token
  | .parameter p i => .parameter p (F.index i)
  | t => t

def lexeme (F : Frame) (t : Lexeme) : Lexeme := ⟨F.token t.token, t.spelling, t.offset + F.places⟩

def mention (F : Frame) : Mention → Mention
  | .column table name double offset => .column table name double (offset + F.places)
  | .qualified schema table name offset => .qualified schema table name (offset + F.places)

def call (F : Frame) : Call → Call
  | .function name offset => .function name (offset + F.places)
  | .query form words offset => .query form words (offset + F.places)
  | .elementCount found expected => .elementCount found expected
  | .collation name => .collation name
  | .hexNumber spelling offset => .hexNumber spelling (offset + F.places)

def expr (F : Frame) : Parsed → Parsed := Expr.renamed F.mention F.call F.index

def exprs (F : Frame) : List Parsed → List Parsed := Expr.renamedList F.mention F.call F.index

def around (F : Frame) (ts : List Lexeme) : List Lexeme :=
  ts.map F.lexeme ++ ⟨.rightParen, F.spelling, F.offset⟩ :: F.more

variable (F : Frame)

/-! What is built of expressions within the frame. -/

theorem expr_negatedIf (negated : Bool) (e : Parsed) :
    F.expr (negatedIf negated e) = negatedIf negated (F.expr e) := by
  cases negated <;> rfl

theorem isZero_expr (e : Parsed) : isZero (F.expr e) = isZero e := by
  cases e <;> rfl

theorem expr_conjunction (a b : Parsed) :
    F.expr (conjunction a b) = conjunction (F.expr a) (F.expr b) := by
  simp only [conjunction, isZero_expr]
  split <;> rfl

theorem expr_join (o : Operator) (offset : Nat) (a b : Parsed) :
    F.expr (o.join offset a b) = o.join (offset + F.places) (F.expr a) (F.expr b) := by
  cases o with
  | and => exact F.expr_conjunction a b
  | _ => rfl

theorem expr_collated (name : String) (e : Parsed) :
    F.expr (collated name e) = collated name (F.expr e) := by
  unfold collated
  cases Collation.named? name <;> rfl

theorem expr_matched (m : Matching) (negated : Bool) (word : Lexeme) (text pattern : Parsed)
    (escape : Option Parsed) :
    F.expr (matched m negated word text pattern escape) =
      matched m negated (F.lexeme word) (F.expr text) (F.expr pattern) (escape.map F.expr) := by
  cases m <;> cases escape <;> cases negated <;> rfl

theorem isFixed_expr (e : Parsed) : isFixed (F.expr e) = isFixed e :=
  Expr.readsOnly_renamed F.mention F.call F.index (fun _ => rfl) (fun _ => rfl) e

theorem isRow_expr (e : Parsed) : isRow (F.expr e) = isRow e := by
  cases e with
  | apply o operands => cases o <;> rfl
  | _ => rfl

theorem expr_memberOfOne (negated : Bool) (e item : Parsed) :
    F.expr (memberOfOne negated e item) = memberOfOne negated (F.expr e) (F.expr item) := by
  have other : F.expr (if isFixed item then
        negatedIf negated (.compare .equal e (.apply .plus [item]))
      else .apply (.member negated) [e, item]) =
      if isFixed (F.expr item) then
        negatedIf negated (.compare .equal (F.expr e) (.apply .plus [F.expr item]))
      else .apply (.member negated) [F.expr e, F.expr item] := by
    rw [isFixed_expr]
    split
    · exact F.expr_negatedIf negated _
    · rfl
  cases item with
  | call f operands =>
    cases f with
    | query form words offset =>
      cases form with
      | value => rfl
      | _ => exact other
    | _ => exact other
  | _ => exact other

theorem elementCount_expr (e : Parsed) : elementCount (F.expr e) = elementCount e := by
  cases e with
  | apply o operands =>
    cases o with
    | row => exact Expr.length_renamedList F.mention F.call F.index operands
    | _ => rfl
  | _ => rfl

theorem expr_memberOfRows (negated : Bool) (e : Parsed) (items : List Parsed) :
    F.expr (memberOfRows negated e items) = memberOfRows negated (F.expr e) (F.exprs items) := by
  have same : (F.exprs items).find? (fun item => elementCount item != elementCount (F.expr e)) =
      (items.find? fun item => elementCount item != elementCount e).map F.expr := by
    rw [show F.exprs items = items.map F.expr from Expr.renamedList_eq _ _ _ items, List.find?_map]
    simp only [Function.comp_def, elementCount_expr]
  unfold memberOfRows
  rw [same]
  cases items.find? fun item => elementCount item != elementCount e with
  | none => rfl
  | some item => simp only [Option.map_some, elementCount_expr]; rfl

theorem isQuery_expr (e : Parsed) : isQuery (F.expr e) = isQuery e := by
  cases e with
  | call f operands =>
    cases f with
    | query form words offset => cases form <;> rfl
    | _ => rfl
  | _ => rfl

theorem expr_member (negated : Bool) (e : Parsed) (items : List Parsed) :
    F.expr (member negated e items) = member negated (F.expr e) (F.exprs items) := by
  rcases items with _ | ⟨item, _ | ⟨other, items⟩⟩
  · rfl
  · show F.expr (if isRow e && !isQuery item then _ else _) =
      if isRow (F.expr e) && !isQuery (F.expr item) then _ else _
    rw [isRow_expr, isQuery_expr]
    split
    · exact F.expr_memberOfRows negated e [item]
    · exact F.expr_memberOfOne negated e item
  · show F.expr (if isRow e then _ else _) = if isRow (F.expr e) then _ else _
    rw [isRow_expr]
    split
    · exact F.expr_memberOfRows negated e (item :: other :: items)
    · rfl

theorem expr_group (es : List Parsed) : F.expr (group es) = group (F.exprs es) := by
  rcases es with _ | ⟨_, _ | _⟩ <;> rfl

theorem expr_hexLiteral (n : Nat) (t : Lexeme) :
    F.expr (hexLiteral n t) = hexLiteral n (F.lexeme t) := by
  unfold hexLiteral
  split <;> rfl

theorem expr_negative (c : Cell) : F.expr (negative c) = negative c := by
  unfold negative
  split <;> rfl

theorem expr_negativeHex (n : Nat) (t : Lexeme) :
    F.expr (negativeHex n t) = negativeHex n (F.lexeme t) := by
  unfold negativeHex
  split
  · exact F.expr_negative _
  · rfl

theorem exprs_append (es more : List Parsed) :
    F.exprs (es ++ more) = F.exprs es ++ F.exprs more := by
  simp only [exprs, Expr.renamedList_eq, List.map_append]

theorem wordOf_lexeme (offset : Nat) (t : Lexeme) :
    wordOf (offset + F.places) (F.lexeme t) = wordOf offset t := by
  obtain ⟨token, spelling, place⟩ := t
  have distance : place + F.places - (offset + F.places) = place - offset :=
    Nat.add_sub_add_right place F.places offset
  cases token <;> simp only [wordOf, lexeme, Frame.token, distance]

theorem filterMap_parameterOf (ts : List Lexeme) :
    (ts.map F.lexeme).filterMap parameterOf = F.exprs (ts.filterMap parameterOf) := by
  induction ts with
  | nil => rfl
  | cons t ts ih =>
    obtain ⟨token, spelling, offset⟩ := t
    cases token with
    | parameter p i => exact congrArg (Expr.parameter (F.index i) :: ·) ih
    | _ => exact ih

theorem expr_asking (form : QueryForm) (operands : List Parsed) (offset : Nat)
    (ts : List Lexeme) :
    F.expr (asking form operands offset ts) =
      asking form (F.exprs operands) (offset + F.places) (ts.map F.lexeme) := by
  have words : (ts.map F.lexeme).map (wordOf (offset + F.places)) = ts.map (wordOf offset) := by
    rw [List.map_map]
    exact List.map_congr_left fun t _ => F.wordOf_lexeme offset t
  rw [asking, asking, words, filterMap_parameterOf, ← exprs_append]
  rfl

end Frame

variable {α β γ δ : Type} {F : Frame} {f : α → β} {g : γ → δ}

/-- Where one reading finds something, another one finds the same within a frame. -/
def Carried (F : Frame) (f : α → β) (x : Except (List Lexeme) (α × List Lexeme))
    (y : Except (List Lexeme) (β × List Lexeme)) : Prop :=
  Mirrors (Prod.map f F.around) x y

namespace Carried

variable {x x' : Except (List Lexeme) (α × List Lexeme)}
  {y y' : Except (List Lexeme) (β × List Lexeme)} {ts : List Lexeme}

theorem done {a : α} : Carried F f (.ok (a, ts)) (.ok (f a, F.around ts)) := .pure

theorem fails : Carried F f (.error ts) y := nofun

theorem bind {k : α × List Lexeme → Except (List Lexeme) (γ × List Lexeme)}
    {l : β × List Lexeme → Except (List Lexeme) (δ × List Lexeme)} (first : Carried F f x y)
    (next : ∀ a rest, Carried F g (k (a, rest)) (l (f a, F.around rest))) :
    Carried F g (x >>= k) (y >>= l) :=
  Mirrors.bind first fun found => next found.1 found.2

theorem ite {c : Prop} [Decidable c]
    (yes : Carried F f x y) (no : Carried F f x' y') :
    Carried F f (if c then x else x') (if c then y else y') := by
  by_cases holds : c
  · simpa only [if_pos holds] using yes
  · simpa only [if_neg holds] using no

end Carried

/-- Whatever one reader finds in tokens, another one finds within a frame around them. -/
def Carries (F : Frame) (f : α → β) (p : Parser α) (q : Parser β) : Prop :=
  ∀ ts, Carried F f (p ts) (q (F.around ts))

theorem carries_expect (k : Keyword) : Carries F (id : Unit → Unit) (expect k) (expect k) := by
  rintro (_ | ⟨⟨token, spelling, offset⟩, ts⟩)
  · exact .fails
  · cases token with
    | keyword found => exact .ite .done .fails
    | _ => exact .fails

theorem refused_expect {k : Keyword} {ts refused : List Lexeme}
    (fails : expect k ts = .error refused) :
    ∃ refused, expect k (F.around ts) = .error refused := by
  rcases ts with _ | ⟨⟨token, spelling, offset⟩, ts⟩
  · exact ⟨_, rfl⟩
  · cases token with
    | keyword found =>
      have other : found ≠ k := fun same => by simp [expect, same] at fails
      exact ⟨_, if_neg other⟩
    | _ => exact ⟨_, rfl⟩

theorem carries_rightParen : Carries F (id : Unit → Unit) expectRightParen expectRightParen := by
  rintro (_ | ⟨⟨token, spelling, offset⟩, ts⟩)
  · exact .fails
  · cases token with
    | rightParen => exact .done
    | _ => exact .fails

theorem carries_leftParen : Carries F (id : Unit → Unit) expectLeftParen expectLeftParen := by
  rintro (_ | ⟨⟨token, spelling, offset⟩, ts⟩)
  · exact .fails
  · cases token with
    | leftParen => exact .done
    | _ => exact .fails

theorem carries_name : Carries F (id : String → String) name name := by
  rintro (_ | ⟨⟨token, spelling, offset⟩, ts⟩)
  · exact .fails
  · cases token with
    | name s => exact .done
    | quotedName s double => exact .done
    | text s => exact .done
    | keyword k => exact .ite .done .fails
    | _ => exact .fails

theorem carries_sameness : Carries F (id : Bool → Bool) sameness sameness := by
  rintro (_ | ⟨⟨token, spelling, offset⟩, ts⟩)
  · exact .done
  cases token with
  | keyword k =>
    cases k with
    | distinct => exact (carries_expect .from ts).bind fun _ _ => .done
    | not =>
      rcases ts with _ | ⟨⟨token, spelling, offset⟩, ts⟩
      · exact .done
      cases token with
      | keyword k =>
        cases k with
        | distinct => exact (carries_expect .from ts).bind fun _ _ => .done
        | _ => exact .done
      | _ => exact .done
    | _ => exact .done
  | _ => exact .done

theorem carries_qualified (first : String) (offset : Nat) :
    Carries F F.expr (qualified first offset) (qualified first (offset + F.places)) := by
  refine fun ts => (carries_name ts).bind fun second rest => ?_
  rcases rest with _ | ⟨⟨token, spelling, place⟩, ts⟩
  · exact .done
  cases token with
  | dot => exact (carries_name ts).bind fun _ _ => .done
  | _ => exact .done

theorem isOk_name_lexeme (F : Frame) (t : Lexeme) :
    (name [F.lexeme t]).isOk = (name [t]).isOk := by
  obtain ⟨token, spelling, offset⟩ := t
  cases token with
  | keyword k =>
    show (ite _ _ _ : Except _ _).isOk = (ite _ _ _ : Except _ _).isOk
    split <;> rfl
  | _ => rfl

theorem carries_typeName : Carries F (id : String → String) typeName typeName := by
  intro ts
  induction ts with
  | nil => exact .done
  | cons t ts ih =>
    have same := isOk_name_lexeme F t
    show Carried F id (typeName (t :: ts)) (typeName (F.lexeme t :: F.around ts))
    unfold typeName
    cases found : name [t] with
    | error rest =>
      cases framed : name [F.lexeme t] with
      | error _ => exact .done
      | ok _ => simp [found, framed, Except.isOk, Except.toBool] at same
    | ok _ =>
      cases framed : name [F.lexeme t] with
      | error _ => simp [found, framed, Except.isOk, Except.toBool] at same
      | ok _ => exact ih.bind fun _ _ => .done

theorem carries_number : Carries F (id : Unit → Unit) expectNumber expectNumber := by
  rintro (_ | ⟨⟨token, spelling, offset⟩, ts⟩)
  · exact .fails
  · cases token with
    | number l => exact .done
    | hexNumber n => exact .done
    | _ => exact .fails

theorem carries_signedNumber : Carries F (id : Unit → Unit) signedNumber signedNumber := by
  rintro (_ | ⟨t, ts⟩)
  · exact .fails
  · have same : isSign (F.lexeme t).token = isSign t.token := by
      obtain ⟨token, spelling, offset⟩ := t
      cases token <;> rfl
    show Carried F id (signedNumber (t :: ts)) (signedNumber (F.lexeme t :: F.around ts))
    rw [signedNumber, signedNumber, same]
    exact .ite (carries_number ts) (carries_number (t :: ts))

theorem carries_typeSize : Carries F (id : Unit → Unit) typeSize typeSize := by
  rintro (_ | ⟨⟨token, spelling, offset⟩, ts⟩)
  · exact .done
  cases token with
  | leftParen =>
    refine (carries_signedNumber ts).bind fun _ rest => ?_
    rcases rest with _ | ⟨⟨token, spelling, offset⟩, ts⟩
    · exact .fails
    cases token with
    | comma => exact (carries_signedNumber ts).bind fun _ rest => carries_rightParen rest
    | _ => exact carries_rightParen (_ :: ts)
  | _ => exact .done

theorem beginsQuery_lexeme (F : Frame) (t : Lexeme) :
    beginsQuery (F.lexeme t).token = beginsQuery t.token := by
  obtain ⟨token, spelling, offset⟩ := t
  cases token <;> rfl

theorem carries_enclosed (depth : Nat) :
    Carries F (List.map F.lexeme) (enclosed depth) (enclosed depth) := by
  intro ts
  induction ts generalizing depth with
  | nil => cases depth <;> exact .fails
  | cons t ts ih =>
    obtain ⟨token, spelling, offset⟩ := t
    cases token with
    | leftParen => exact (ih (depth + 1)).bind fun _ _ => .done
    | rightParen =>
      cases depth with
      | zero => exact .done
      | succ depth => exact (ih depth).bind fun _ _ => .done
    | semicolon => cases depth <;> exact .fails
    | stray => cases depth <;> exact .fails
    | _ => exact (ih depth).bind fun _ _ => .done

theorem carries_query (form : QueryForm) (operands : List Parsed) :
    Carries F F.expr (query form operands) (query form (F.exprs operands)) := by
  rintro (_ | ⟨t, ts⟩)
  · exact .fails
  · show Carried F F.expr (query form operands (t :: ts))
      (query form (F.exprs operands) (F.lexeme t :: F.around ts))
    rw [query, query, beginsQuery_lexeme]
    refine .ite ((carries_enclosed 0 (t :: ts)).bind fun found _ => ?_) .fails
    rintro _ ⟨⟩
    exact congrArg (fun found => Except.ok (found, _))
      (F.expr_asking form operands t.offset found).symm

theorem carries_dotted : Carries F (List.map F.lexeme) dotted dotted := by
  rintro (_ | ⟨⟨token, spelling, offset⟩, ts⟩)
  · exact .done
  cases token with
  | dot =>
    rcases ts with _ | ⟨t, ts⟩
    · exact .fails
    · exact (carries_name (t :: ts)).bind fun _ _ => .done
  | _ => exact .done

theorem carries_tableName : Carries F (List.map F.lexeme) tableName tableName := by
  rintro (_ | ⟨t, ts⟩)
  · exact .fails
  refine (carries_name (t :: ts)).bind fun _ _ => (carries_dotted ts).bind fun more rest => ?_
  rcases rest with _ | ⟨⟨token, spelling, offset⟩, ts⟩
  · exact .done
  cases token with
  | leftParen =>
    refine (carries_enclosed 0 ts).bind fun found _ => ?_
    rintro _ ⟨⟩
    simp only [List.map_append, List.map_cons, Prod.map]
    rfl
  | _ => exact .done

/-- Each reader with some steps is carried into the one with at least as many steps. -/
structure Readers (F : Frame) (n m : Nat) : Prop where
  climb : ∀ level, Carries F F.expr (climb n level) (climb m level)
  start : Carries F F.expr (start n) (start m)
  negation : Carries F F.expr (negation n) (negation m)
  grouped : Carries F F.expr (grouped n) (grouped m)
  named : ∀ s double offset,
    Carries F F.expr (named n s double offset) (named m s double (offset + F.places))
  arguments : Carries F F.exprs (arguments n) (arguments m)
  items : Carries F F.exprs (items n) (items m)
  someItems : Carries F F.exprs (someItems n) (someItems m)
  choice : Carries F F.expr (choice n) (choice m)
  branches : Carries F F.exprs (branches n) (branches m)
  casting : Carries F F.expr (casting n) (casting m)
  follow : ∀ level e, Carries F F.expr (follow n level e) (follow m level (F.expr e))
  membership : ∀ negated e,
    Carries F F.expr (membership n negated e) (membership m negated (F.expr e))
  matching : ∀ kind negated word e, Carries F F.expr (matching n kind negated word e)
    (matching m kind negated (F.lexeme word) (F.expr e))
  range : ∀ negated e, Carries F F.expr (range n negated e) (range m negated (F.expr e))

namespace Readers

variable {n m : Nat}

theorem zero (m : Nat) : Readers F 0 m where
  climb _ _ := .fails
  start _ := .fails
  negation _ := .fails
  grouped _ := .fails
  named _ _ _ _ := .fails
  arguments _ := .fails
  items _ := .fails
  someItems _ := .fails
  choice _ := .fails
  branches _ := .fails
  casting _ := .fails
  follow _ _ _ := .fails
  membership _ _ _ := .fails
  matching _ _ _ _ _ := .fails
  range _ _ _ := .fails

theorem climb_succ (readers : Readers F n m) (level : Nat) :
    Carries F F.expr (Condition.climb (n + 1) level) (Condition.climb (m + 1) level) :=
  fun ts => (readers.start ts).bind fun e rest => readers.follow level e rest

theorem start_succ (readers : Readers F n m) :
    Carries F F.expr (Condition.start (n + 1)) (Condition.start (m + 1)) := by
  rintro (_ | ⟨⟨token, spelling, offset⟩, ts⟩)
  · exact .fails
  cases token with
  | number l => exact .done
  | hexNumber k =>
    rintro _ ⟨⟩
    exact congrArg (fun found => Except.ok (found, _)) (F.expr_hexLiteral k _).symm
  | text s =>
    rcases ts with _ | ⟨⟨token, spelling, place⟩, ts⟩
    · exact .done
    cases token with
    | dot => exact carries_qualified s offset ts
    | _ => exact .done
  | blob bytes => exact .done
  | parameter p index => exact .done
  | arithmetic o =>
    cases o with
    | subtract => exact readers.negation ts
    | add => exact (readers.climb _ ts).bind fun _ _ => .done
    | _ => exact .fails
  | tilde => exact (readers.climb _ ts).bind fun _ _ => .done
  | leftParen => exact readers.grouped ts
  | name s => exact readers.named s false offset ts
  | quotedName s double => exact readers.named s double offset ts
  | keyword k =>
    cases k with
    | null => exact .done
    | not => exact (readers.climb _ ts).bind fun _ _ => .done
    | case => exact readers.choice ts
    | cast => exact readers.casting ts
    | «exists» =>
      exact (carries_leftParen ts).bind fun _ rest => carries_query .exists [] rest
    | clock => exact .done
    | matching kind => exact readers.named spelling false offset ts
    | «end» => exact readers.named spelling false offset ts
    | «with» => exact readers.named spelling false offset ts
    | _ => exact .fails
  | _ => exact .fails

theorem negation_succ (readers : Readers F n m) :
    Carries F F.expr (Condition.negation (n + 1)) (Condition.negation (m + 1)) := by
  rintro (_ | ⟨⟨token, spelling, offset⟩, ts⟩)
  · exact .fails
  cases token with
  | number l =>
    rintro _ ⟨⟩
    exact congrArg (fun found => Except.ok (found, _)) (F.expr_negative _).symm
  | hexNumber k =>
    rintro _ ⟨⟩
    exact congrArg (fun found => Except.ok (found, _)) (F.expr_negativeHex k _).symm
  | _ => exact (readers.climb _ (_ :: ts)).bind fun _ _ => .done

theorem grouped_succ (readers : Readers F n m) :
    Carries F F.expr (Condition.grouped (n + 1)) (Condition.grouped (m + 1)) := by
  rintro (_ | ⟨t, ts⟩)
  · exact .fails
  show Carried F F.expr (Condition.grouped (n + 1) (t :: ts))
    (Condition.grouped (m + 1) (F.lexeme t :: F.around ts))
  rw [Condition.grouped, Condition.grouped, beginsQuery_lexeme]
  refine .ite (carries_query .value [] (t :: ts))
    ((readers.someItems (t :: ts)).bind fun es _ => ?_)
  rintro _ ⟨⟩
  exact congrArg (fun found => Except.ok (found, _)) (F.expr_group es).symm

theorem named_succ (readers : Readers F n m) (s : String) (double : Bool) (offset : Nat) :
    Carries F F.expr (Condition.named (n + 1) s double offset)
      (Condition.named (m + 1) s double (offset + F.places)) := by
  rintro (_ | ⟨⟨token, spelling, place⟩, ts⟩)
  · exact .done
  cases token with
  | dot => exact carries_qualified s offset ts
  | leftParen => exact (readers.arguments ts).bind fun _ _ => .done
  | _ => exact .done

theorem arguments_succ (readers : Readers F n m) :
    Carries F F.exprs (Condition.arguments (n + 1)) (Condition.arguments (m + 1)) := by
  rintro (_ | ⟨⟨token, spelling, offset⟩, ts⟩)
  · exact .fails
  cases token with
  | arithmetic o =>
    cases o with
    | multiply => exact (carries_rightParen ts).bind fun _ _ => .done
    | _ => exact readers.items (_ :: ts)
  | keyword k =>
    cases k with
    | distinct => exact readers.items ts
    | all => exact readers.items ts
    | _ => exact readers.items (_ :: ts)
  | _ => exact readers.items (_ :: ts)

theorem items_succ (readers : Readers F n m) :
    Carries F F.exprs (Condition.items (n + 1)) (Condition.items (m + 1)) := by
  rintro (_ | ⟨⟨token, spelling, offset⟩, ts⟩)
  · exact .fails
  cases token with
  | rightParen => exact .done
  | _ => exact readers.someItems (_ :: ts)

theorem someItems_succ (readers : Readers F n m) :
    Carries F F.exprs (Condition.someItems (n + 1)) (Condition.someItems (m + 1)) := by
  refine fun ts => (readers.climb _ ts).bind fun _ rest => ?_
  rcases rest with _ | ⟨⟨token, spelling, offset⟩, ts⟩
  · exact .fails
  cases token with
  | comma => exact (readers.someItems ts).bind fun _ _ => .done
  | rightParen => exact .done
  | _ => exact .fails

theorem choice_succ (readers : Readers F n m) :
    Carries F F.expr (Condition.choice (n + 1)) (Condition.choice (m + 1)) := by
  rintro (_ | ⟨⟨token, spelling, offset⟩, ts⟩)
  · exact .fails
  have compares (t : Lexeme) : Carried F F.expr
      (Condition.climb n orLevel (t :: ts) >>= fun first => expect .when first.2 >>= fun word =>
        Condition.branches n word.2 >>= fun found =>
          pure (.apply (.case true) (first.1 :: found.1), found.2))
      (Condition.climb m orLevel (F.lexeme t :: F.around ts) >>= fun first =>
        expect .when first.2 >>= fun word => Condition.branches m word.2 >>= fun found =>
          pure (.apply (.case true) (first.1 :: found.1), found.2)) :=
    (readers.climb orLevel (t :: ts)).bind fun _ rest => (carries_expect .when rest).bind
      fun _ rest => (readers.branches rest).bind fun _ _ => .done
  cases token with
  | keyword k =>
    cases k with
    | when => exact (readers.branches ts).bind fun _ _ => .done
    | _ => exact compares _
  | _ => exact compares _

theorem branches_succ (readers : Readers F n m) :
    Carries F F.exprs (Condition.branches (n + 1)) (Condition.branches (m + 1)) := by
  refine fun ts => (readers.climb _ ts).bind fun _ rest => (carries_expect .then rest).bind
    fun _ rest => (readers.climb _ rest).bind fun _ rest => ?_
  rcases rest with _ | ⟨⟨token, spelling, offset⟩, ts⟩
  · exact .fails
  cases token with
  | keyword k =>
    cases k with
    | when => exact (readers.branches ts).bind fun _ _ => .done
    | «else» =>
      exact (readers.climb _ ts).bind fun _ rest => (carries_expect .end rest).bind
        fun _ _ => .done
    | «end» => exact .done
    | _ => exact .fails
  | _ => exact .fails

theorem casting_succ (readers : Readers F n m) :
    Carries F F.expr (Condition.casting (n + 1)) (Condition.casting (m + 1)) :=
  fun ts => (carries_leftParen ts).bind fun _ rest => (readers.climb _ rest).bind fun _ rest =>
    (carries_expect .as rest).bind fun _ rest => (carries_typeName rest).bind fun _ rest =>
    (carries_typeSize rest).bind fun _ rest => (carries_rightParen rest).bind fun _ _ => .done

theorem membership_succ (readers : Readers F n m) (negated : Bool) (e : Parsed) :
    Carries F F.expr (Condition.membership (n + 1) negated e)
      (Condition.membership (m + 1) negated (F.expr e)) := by
  rintro (_ | ⟨⟨token, spelling, offset⟩, ts⟩)
  · exact .fails
  have named (t : Lexeme) : Carried F F.expr
      (tableName (t :: ts) >>= fun found =>
        pure (asking (.member negated) [e] t.offset found.1, found.2))
      (tableName (F.lexeme t :: F.around ts) >>= fun found =>
        pure (asking (.member negated) [F.expr e] (t.offset + F.places) found.1, found.2)) :=
    (carries_tableName (t :: ts)).bind fun found _ => by
      rintro _ ⟨⟩
      exact congrArg (fun found => Except.ok (found, _)) (F.expr_asking _ [e] t.offset found).symm
  cases token with
  | leftParen =>
    rcases ts with _ | ⟨t, ts⟩
    · exact .fails
    show Carried F F.expr
      (if beginsQuery t.token then query (.member negated) [e] (t :: ts)
        else Condition.items n (t :: ts) >>= fun list => pure (member negated e list.1, list.2))
      (if beginsQuery (F.lexeme t).token then
          query (.member negated) [F.expr e] (F.lexeme t :: F.around ts)
        else Condition.items m (F.lexeme t :: F.around ts) >>= fun list =>
          pure (member negated (F.expr e) list.1, list.2))
    rw [beginsQuery_lexeme]
    refine .ite (carries_query (.member negated) [e] (t :: ts))
      ((readers.items (t :: ts)).bind fun es _ => ?_)
    rintro _ ⟨⟩
    exact congrArg (fun found => Except.ok (found, _)) (F.expr_member negated e es).symm
  | _ => exact named _

theorem matching_succ (readers : Readers F n m) (kind : Matching) (negated : Bool)
    (word : Lexeme) (e : Parsed) :
    Carries F F.expr (Condition.matching (n + 1) kind negated word e)
      (Condition.matching (m + 1) kind negated (F.lexeme word) (F.expr e)) := by
  have done (pattern : Parsed) (escape : Option Parsed) (rest : List Lexeme) : Carried F F.expr
      (.ok (matched kind negated word e pattern escape, rest))
      (.ok (matched kind negated (F.lexeme word) (F.expr e) (F.expr pattern)
        (escape.map F.expr), F.around rest)) := by
    rintro _ ⟨⟩
    exact congrArg (fun found => Except.ok (found, _))
      (F.expr_matched kind negated word e pattern escape).symm
  refine fun ts => (readers.climb _ ts).bind fun pattern rest => ?_
  rcases rest with _ | ⟨⟨token, spelling, offset⟩, ts⟩
  · exact done pattern none []
  cases token with
  | keyword k =>
    cases k with
    | escape => exact (readers.climb _ ts).bind fun escape rest => done pattern (some escape) rest
    | _ => exact done pattern none (_ :: ts)
  | _ => exact done pattern none (_ :: ts)

theorem range_succ (readers : Readers F n m) (negated : Bool) (e : Parsed) :
    Carries F F.expr (Condition.range (n + 1) negated e)
      (Condition.range (m + 1) negated (F.expr e)) := by
  refine fun ts => (readers.climb _ ts).bind fun low rest => ?_
  cases tried : expect .or rest with
  | ok found =>
    intro bounds done
    obtain ⟨_, _, refused⟩ := ok_of_bind (by simpa only [tried] using done)
    cases refused
  | error refused =>
    obtain ⟨_, tried'⟩ := refused_expect (F := F) tried
    simp only [tried, tried']
    exact (carries_expect .and rest).bind fun _ rest => (readers.climb _ rest).bind
      fun _ _ => .done

theorem follow_succ (readers : Readers F n m) (least : Nat) (e : Parsed) :
    Carries F F.expr (Condition.follow (n + 1) least e)
      (Condition.follow (m + 1) least (F.expr e)) := by
  rintro (_ | ⟨⟨token, spelling, offset⟩, ts⟩)
  · exact .done
  -- Operators differ only in their level and in what they make of both operands.
  have operator (o : Operator) : Carried F F.expr
      (if least ≤ o.level then Condition.climb n (o.level + 1) ts >>= fun b =>
          Condition.follow n least (o.join offset e b.1) b.2
        else .ok (e, ⟨token, spelling, offset⟩ :: ts))
      (if least ≤ o.level then Condition.climb m (o.level + 1) (F.around ts) >>= fun b =>
          Condition.follow m least (o.join (offset + F.places) (F.expr e) b.1) b.2
        else .ok (F.expr e, F.lexeme ⟨token, spelling, offset⟩ :: F.around ts)) := by
    refine .ite ((readers.climb _ ts).bind fun b rest => ?_) .done
    have next := readers.follow least (o.join offset e b) rest
    rwa [F.expr_join] at next
  cases token with
  | comparison c => exact operator (.comparison c)
  | arithmetic o => exact operator (.arithmetic o)
  | concat => exact operator .concat
  | arrow toValue => exact operator (.arrow toValue)
  | keyword k =>
    cases k with
    | or => exact operator .or
    | and => exact operator .and
    | is =>
      exact .ite ((carries_sameness ts).bind fun negated rest => (readers.climb _ rest).bind
        fun b rest => readers.follow least (.apply (.same negated) [e, b]) rest) .done
    | isNull =>
      exact .ite (readers.follow least (.apply (.same false) [e, .literal .null]) ts) .done
    | notNull =>
      exact .ite (readers.follow least (.apply (.same true) [e, .literal .null]) ts) .done
    | not =>
      refine .ite ?_ .done
      rcases ts with _ | ⟨⟨token, spelling, offset⟩, ts⟩
      · exact .fails
      cases token with
      | keyword k =>
        cases k with
        | null => exact readers.follow least (.apply (.same true) [e, .literal .null]) ts
        | «in» =>
          exact (readers.membership true e ts).bind fun e rest => readers.follow least e rest
        | matching kind =>
          exact (readers.matching kind true _ e ts).bind fun e rest =>
            readers.follow least e rest
        | between =>
          exact (readers.range true e ts).bind fun e rest => readers.follow least e rest
        | _ => exact .fails
      | _ => exact .fails
    | «in» =>
      exact .ite ((readers.membership false e ts).bind fun e rest => readers.follow least e rest)
        .done
    | matching kind =>
      exact .ite ((readers.matching kind false _ e ts).bind fun e rest =>
        readers.follow least e rest) .done
    | between =>
      exact .ite ((readers.range false e ts).bind fun e rest => readers.follow least e rest)
        .done
    | collate =>
      refine .ite ((carries_name ts).bind fun c rest => ?_) .done
      have next := readers.follow least (collated c e) rest
      rwa [F.expr_collated] at next
    | _ => exact .done
  | _ => exact .done

/-- A reader with more steps reads the same from tokens within a frame. -/
theorem of_le {n m : Nat} (fewer : n ≤ m) : Readers F n m := by
  -- The readers call each other, so that all of them go through one induction on the steps.
  induction n generalizing m with
  | zero => exact zero m
  | succ n ih =>
    obtain ⟨m, rfl⟩ := Nat.exists_eq_add_of_lt fewer
    have readers : Readers F n (n + m) := ih (by omega)
    exact {
      climb := readers.climb_succ
      start := readers.start_succ
      negation := readers.negation_succ
      grouped := readers.grouped_succ
      named := readers.named_succ
      arguments := readers.arguments_succ
      items := readers.items_succ
      someItems := readers.someItems_succ
      choice := readers.choice_succ
      branches := readers.branches_succ
      casting := readers.casting_succ
      follow := readers.follow_succ
      membership := readers.membership_succ
      matching := readers.matching_succ
      range := readers.range_succ }

end Readers

/-- Tokens that make a whole condition are one operand in parentheses, and what comes after the
parentheses follows it. -/
theorem climb_group {ts : List Lexeme} {e : Parsed} (whole : expression ts = .ok (e, []))
    (begins : ∀ t ∈ ts.head?, beginsQuery t.token = false) {spelling : String} {offset n : Nat}
    (enough : 4 * ts.length + 4 ≤ n) (level : Nat) :
    climb (n + 4) level (⟨.leftParen, spelling, offset⟩ :: F.around ts) =
      follow (n + 3) level (F.expr e) F.more := by
  -- What stands in parentheses is read as it would be alone, up to the one that closes it.
  have inside : climb n orLevel (F.around ts) = .ok (F.expr e, F.around []) :=
    (Readers.of_le enough).climb orLevel ts (e, []) whole
  have items : someItems (n + 1) (F.around ts) = .ok ([F.expr e], F.more) := by
    rw [someItems, inside]
    rfl
  have operand : grouped (n + 2) (F.around ts) = .ok (F.expr e, F.more) := by
    cases ts with
    | nil => cases whole
    | cons t ts =>
      have plain : beginsQuery (F.lexeme t).token = false :=
        (beginsQuery_lexeme F t).trans (begins t rfl)
      rw [show F.around (t :: ts) = F.lexeme t :: F.around ts from rfl] at items ⊢
      rw [grouped, if_neg (Bool.eq_false_iff.1 plain), items]
      rfl
  show (grouped (n + 2) _ >>= fun first => follow (n + 3) level first.1 first.2) = _
  rw [operand]
  rfl

end Condition

end ObsCatalog.Sql
