import ObsCatalog.Sql.Engine

/-! Conditions from tokens.

Operators bind in levels, from `or`, which binds least, over `and`, `not`, the comparisons
for equality and those for order to the operators on numbers and texts; those of one level
group to the left. A text that is no condition is refused at the first token with which no
condition could go on. What a query says is not looked into: it reaches up to the
parenthesis that closes it.
-/

set_option autoImplicit false

namespace ObsCatalog.Sql

/-- What a name in a condition refers to, with its place in the text. -/
inductive Mention where
  | column (table : Option String) (name : String) (double : Bool) (offset : Nat)
  | qualified (schema table name : String) (offset : Nat)
  deriving DecidableEq, Repr

inductive Call where
  | function (name : String) (offset : Nat)
  | query (form : QueryForm) (words : List Word) (offset : Nat)
  /-- A list for a row of values in which an element has another count of them. -/
  | elementCount (found expected : Nat)
  /-- A collation that is not known. -/
  | collation (name : String)
  /-- A number of more than 64 bits. -/
  | hexNumber (spelling : String) (offset : Nat)

namespace Condition

/-- A reader of tokens; it fails with the tokens that it could not go on with. -/
abbrev Parser (α : Type) := List Lexeme → Except (List Lexeme) (α × List Lexeme)

abbrev Parsed := Expr Mention Call

def orLevel : Nat := 0
def andLevel : Nat := 1
def notLevel : Nat := 2
def equalLevel : Nat := 3
def orderLevel : Nat := 4
def bitLevel : Nat := 5
def sumLevel : Nat := 6
def productLevel : Nat := 7
def concatLevel : Nat := 8
def collateLevel : Nat := 9
def operandLevel : Nat := 10

def expect (k : Keyword) : Parser Unit
  | [] => .error []
  | t :: rest =>
    match t.token with
    | .keyword found => if found = k then .ok ((), rest) else .error (t :: rest)
    | _ => .error (t :: rest)

def expectLeftParen : Parser Unit
  | [] => .error []
  | t :: rest =>
    match t.token with
    | .leftParen => .ok ((), rest)
    | _ => .error (t :: rest)

def expectRightParen : Parser Unit
  | [] => .error []
  | t :: rest =>
    match t.token with
    | .rightParen => .ok ((), rest)
    | _ => .error (t :: rest)

def name : Parser String
  | [] => .error []
  | t :: rest =>
    match t.token with
    | .name s => .ok (s, rest)
    | .quotedName s _ => .ok (s, rest)
    | .text s => .ok (s, rest)
    | .keyword k => if k.isName then .ok (t.spelling, rest) else .error (t :: rest)
    | _ => .error (t :: rest)

/-- Whether a sameness is negated, and whether nulls count as values in both cases:
`is`, `is not`, `is distinct from`, `is not distinct from`. -/
def sameness : Parser Bool
  | [] => .ok (false, [])
  | t :: rest =>
    match t.token with
    | .keyword .distinct => do
      let (_, rest) ← expect .from rest
      pure (true, rest)
    | .keyword .not =>
      match rest with
      | [] => .ok (true, [])
      | d :: more =>
        match d.token with
        | .keyword .distinct => do
          let (_, rest) ← expect .from more
          pure (false, rest)
        | _ => .ok (true, d :: more)
    | _ => .ok (false, t :: rest)

/-- A column of a table, after the name of the table or of its schema and a dot. -/
def qualified (first : String) (offset : Nat) : Parser Parsed := fun ts => do
  let (second, rest) ← name ts
  match rest with
  | [] => .ok (.column (.column (some first) second false offset), [])
  | t :: more =>
    match t.token with
    | .dot => do
      let (third, rest) ← name more
      pure (.column (.qualified first second third offset), rest)
    | _ => .ok (.column (.column (some first) second false offset), t :: more)

def typeName : Parser String
  | [] => .ok ("", [])
  | t :: rest =>
    match name [t] with
    | .error _ => .ok ("", t :: rest)
    | .ok _ => do
      let (more, rest) ← typeName rest
      pure (t.spelling ++ " " ++ more, rest)

def isSign : Token → Bool
  | .arithmetic .add | .arithmetic .subtract => true
  | _ => false

def expectNumber : Parser Unit
  | [] => .error []
  | t :: rest =>
    match t.token with
    | .number _ => .ok ((), rest)
    | .hexNumber _ => .ok ((), rest)
    | _ => .error (t :: rest)

def signedNumber : Parser Unit
  | [] => .error []
  | t :: rest => if isSign t.token then expectNumber rest else expectNumber (t :: rest)

/-- The size of a type in parentheses, if there is one: one number or two. -/
def typeSize : Parser Unit
  | [] => .ok ((), [])
  | t :: rest =>
    match t.token with
    | .leftParen => do
      let (_, rest) ← signedNumber rest
      match rest with
      | [] => .error []
      | u :: more =>
        match u.token with
        | .comma => do
          let (_, rest) ← signedNumber more
          expectRightParen rest
        | _ => expectRightParen (u :: more)
    | _ => .ok ((), t :: rest)

def beginsQuery : Token → Bool
  | .keyword .select | .keyword .with => true
  | _ => false

/-- The tokens up to the parenthesis that closes the innermost of those left open. -/
def enclosed : Nat → Parser (List Lexeme)
  | _, [] => .error []
  | depth, t :: rest =>
    match t.token with
    | .leftParen => do
      let (ts, rest) ← enclosed (depth + 1) rest
      pure (t :: ts, rest)
    | .rightParen =>
      match depth with
      | 0 => .ok ([], rest)
      | depth + 1 => do
        let (ts, rest) ← enclosed depth rest
        pure (t :: ts, rest)
    | .semicolon => .error (t :: rest)
    | .stray => .error (t :: rest)
    | _ => do
      let (ts, rest) ← enclosed depth rest
      pure (t :: ts, rest)

def wordOf (offset : Nat) (t : Lexeme) : Word :=
  match t.token with
  | .parameter _ _ => ⟨.parameter .anonymous 0, t.spelling, t.offset - offset⟩
  | token => ⟨token, t.spelling, t.offset - offset⟩

def parameterOf (t : Lexeme) : Option Parsed :=
  match t.token with
  | .parameter _ index => some (.parameter index)
  | _ => none

/-- The call of a query, with the values of its parameters after other operands. -/
def asking (form : QueryForm) (operands : List Parsed) (offset : Nat) (ts : List Lexeme) :
    Parsed :=
  .call (.query form (ts.map (wordOf offset)) offset) (operands ++ ts.filterMap parameterOf)

def query (form : QueryForm) (operands : List Parsed) : Parser Parsed
  | [] => .error []
  | t :: rest =>
    if beginsQuery t.token then do
      let (ts, rest) ← enclosed 0 (t :: rest)
      pure (asking form operands t.offset ts, rest)
    else .error (t :: rest)

def dotted : Parser (List Lexeme)
  | [] => .ok ([], [])
  | d :: rest =>
    match d.token with
    | .dot =>
      match rest with
      | [] => .error []
      | t :: more => do
        let _ ← name (t :: more)
        pure ([d, t], more)
    | _ => .ok ([], d :: rest)

/-- The name of a table and, for a table that a function makes, its arguments. -/
def tableName : Parser (List Lexeme)
  | [] => .error []
  | t :: rest => do
    let _ ← name (t :: rest)
    let (more, rest) ← dotted rest
    match rest with
    | [] => .ok (t :: more, [])
    | p :: after =>
      match p.token with
      | .leftParen => do
        let (ts, rest) ← enclosed 0 after
        pure (t :: more ++ p :: ts, rest)
      | _ => .ok (t :: more, p :: after)

inductive Operator where
  | or
  | and
  | comparison (c : Comparison)
  | arithmetic (a : Arithmetic)
  | concat
  | arrow (toValue : Bool)

def operator? : Token → Option Operator
  | .keyword .or => some .or
  | .keyword .and => some .and
  | .comparison c => some (.comparison c)
  | .arithmetic a => some (.arithmetic a)
  | .concat => some .concat
  | .arrow toValue => some (.arrow toValue)
  | _ => none

def isZero : Parsed → Bool
  | .literal (.integer n) => n == 0
  | _ => false

/-- Two expressions that both have to hold. When one of them is the constant zero, so is
the whole, and the other one is not looked at. -/
def conjunction (a b : Parsed) : Parsed :=
  if isZero a || isZero b then .literal (.integer 0) else .and a b

namespace Operator

def level : Operator → Nat
  | .or => orLevel
  | .and => andLevel
  | .comparison .equal | .comparison .notEqual => equalLevel
  | .comparison _ => orderLevel
  | .arithmetic .add | .arithmetic .subtract => sumLevel
  | .arithmetic .multiply | .arithmetic .divide | .arithmetic .remainder => productLevel
  | .arithmetic _ => bitLevel
  | .concat | .arrow _ => concatLevel

/-- What an operator at a place makes of two operands. An arrow calls a function. -/
def join (o : Operator) (offset : Nat) (a b : Parsed) : Parsed :=
  match o with
  | .or => .apply .or [a, b]
  | .and => conjunction a b
  | .comparison c => .compare c a b
  | .arithmetic o => .apply (.arithmetic o) [a, b]
  | .concat => .apply .concat [a, b]
  | .arrow toValue => .call (.function (if toValue then "->>" else "->") offset) [a, b]

end Operator

def negatedIf (negated : Bool) (e : Parsed) : Parsed := if negated then .apply .not [e] else e

def collated (name : String) (e : Parsed) : Parsed :=
  match Collation.named? name with
  | some c => .apply (.collate c) [e]
  | none => .call (.collation name) [e]

/-- A text that is matched with a pattern. Only the common patterns are operations; the
others call a function of the name of the operator. -/
def matched (m : Matching) (negated : Bool) (word : Lexeme) (text pattern : Parsed)
    (escape : Option Parsed) : Parsed :=
  match m, escape with
  | .like, escape => .apply (.like negated) (text :: pattern :: escape.toList)
  | .glob, none => .apply (.glob negated) [text, pattern]
  | _, escape =>
    negatedIf negated
      (.call (.function word.spelling word.offset) (pattern :: text :: escape.toList))

def isRow : Parsed → Bool
  | .apply .row _ => true
  | _ => false

def isFixed (e : Parsed) : Bool := e.readsOnly (fun _ => false) fun _ => false

/-- A value that is the member of a list of one: a query gives its rows, and to be among one
constant is to equal it. -/
def memberOfOne (negated : Bool) (e item : Parsed) : Parsed :=
  match item with
  | .call (.query .value words offset) operands =>
    .call (.query (.member negated) words offset) (e :: operands)
  | item =>
    if isFixed item then negatedIf negated (.compare .equal e (.apply .plus [item]))
    else .apply (.member negated) [e, item]

def elementCount : Parsed → Nat
  | .apply .row es => es.length
  | _ => 1

/-- A row of values that is among listed rows, each of as many values. -/
def memberOfRows (negated : Bool) (e : Parsed) (items : List Parsed) : Parsed :=
  match items.find? fun item => elementCount item != elementCount e with
  | some item => .call (.elementCount (elementCount item) (elementCount e)) []
  | none => .apply (.listed negated) (e :: items)

def isQuery : Parsed → Bool
  | .call (.query .value _ _) _ => true
  | _ => false

/-- A value that is among some. Nothing is a member of the empty list, whatever the value is,
which then is not looked at. -/
def member (negated : Bool) (e : Parsed) : List Parsed → Parsed
  | [] => .literal (.ofBool negated)
  | [item] =>
    if isRow e && !isQuery item then memberOfRows negated e [item] else memberOfOne negated e item
  | items =>
    if isRow e then memberOfRows negated e items else .apply (.member negated) (e :: items)

def group : List Parsed → Parsed
  | [e] => e
  | es => .apply .row es

def hexLiteral (n : Nat) (t : Lexeme) : Parsed :=
  if n < UInt64.size then .literal (.integer (Int64.ofNat n))
  else .call (.hexNumber t.spelling t.offset) []

/-- A number after a minus sign. The sign belongs to the number, unless that is zero. -/
def negative (c : Cell) : Parsed :=
  if isZero (.literal c) then .apply .negate [.literal c] else .literal c

def negativeHex (n : Nat) (t : Lexeme) : Parsed :=
  if n < UInt64.size ∧ n ≠ Nat.pow 2 63 then negative (.integer (-Int64.ofNat n))
  else .call (.hexNumber ("-" ++ t.spelling) t.offset) []

mutual

/-- An expression whose operators are at least of a level. Of any four of these readers that
call each other one consumes a token, which bounds the steps. -/
def climb : Nat → Nat → Parser Parsed
  | 0, _, ts => .error ts
  | steps + 1, level, ts => do
    let (e, rest) ← start steps ts
    follow steps level e rest

def start : Nat → Parser Parsed
  | 0, ts => .error ts
  | _ + 1, [] => .error []
  | steps + 1, t :: rest =>
    match t.token with
    | .number l => .ok (.literal (.ofLiteral false l), rest)
    | .hexNumber n => .ok (hexLiteral n t, rest)
    | .text s =>
      match rest with
      | [] => .ok (.literal (.text s), [])
      | d :: more =>
        match d.token with
        | .dot => qualified s t.offset more
        | _ => .ok (.literal (.text s), d :: more)
    | .blob bytes => .ok (.literal (.blob bytes), rest)
    | .parameter _ index => .ok (.parameter index, rest)
    | .keyword .null => .ok (.literal .null, rest)
    | .arithmetic .subtract => negation steps rest
    | .arithmetic .add => do
      let (e, rest) ← climb steps operandLevel rest
      pure (.apply .plus [e], rest)
    | .tilde => do
      let (e, rest) ← climb steps operandLevel rest
      pure (.apply .complement [e], rest)
    | .leftParen => grouped steps rest
    -- The operand takes in the comparisons that follow, wherever `not` itself stands.
    | .keyword .not => do
      let (e, rest) ← climb steps equalLevel rest
      pure (.apply .not [e], rest)
    | .keyword .case => choice steps rest
    | .keyword .cast => casting steps rest
    | .keyword .exists => do
      let (_, rest) ← expectLeftParen rest
      query .exists [] rest
    | .keyword .clock => .ok (.call (.function t.spelling t.offset) [], rest)
    -- The word itself could go on as an expression; what follows it is at fault.
    | .keyword .raise => .error rest
    | .name s => named steps s false t.offset rest
    | .quotedName s double => named steps s double t.offset rest
    | .keyword (.matching _) => named steps t.spelling false t.offset rest
    | .keyword .end => named steps t.spelling false t.offset rest
    | .keyword .with => named steps t.spelling false t.offset rest
    | _ => .error (t :: rest)

def negation : Nat → Parser Parsed
  | 0, ts => .error ts
  | _ + 1, [] => .error []
  | steps + 1, t :: rest =>
    match t.token with
    | .number l => .ok (negative (.ofLiteral true l), rest)
    | .hexNumber n => .ok (negativeHex n t, rest)
    | _ => do
      let (e, rest) ← climb steps operandLevel (t :: rest)
      pure (.apply .negate [e], rest)

def grouped : Nat → Parser Parsed
  | 0, ts => .error ts
  | _ + 1, [] => .error []
  | steps + 1, t :: rest =>
    if beginsQuery t.token then query .value [] (t :: rest)
    else do
      let (es, rest) ← someItems steps (t :: rest)
      pure (group es, rest)

/-- What a name begins: a column, a column of a named table, or a call. -/
def named : Nat → String → Bool → Nat → Parser Parsed
  | 0, _, _, _, ts => .error ts
  | _ + 1, s, double, offset, [] => .ok (.column (.column none s double offset), [])
  | steps + 1, s, double, offset, t :: rest =>
    match t.token with
    | .dot => qualified s offset rest
    | .leftParen => do
      let (es, rest) ← arguments steps rest
      pure (.call (.function s offset) es, rest)
    | _ => .ok (.column (.column none s double offset), t :: rest)

/-- The arguments of a function. A star stands for none. -/
def arguments : Nat → Parser (List Parsed)
  | 0, ts => .error ts
  | _ + 1, [] => .error []
  | steps + 1, t :: rest =>
    match t.token with
    | .arithmetic .multiply => do
      let (_, rest) ← expectRightParen rest
      pure ([], rest)
    | .keyword .distinct => items steps rest
    | .keyword .all => items steps rest
    | _ => items steps (t :: rest)

def items : Nat → Parser (List Parsed)
  | 0, ts => .error ts
  | _ + 1, [] => .error []
  | steps + 1, t :: rest =>
    match t.token with
    | .rightParen => .ok ([], rest)
    | _ => someItems steps (t :: rest)

def someItems : Nat → Parser (List Parsed)
  | 0, ts => .error ts
  | steps + 1, ts => do
    let (e, rest) ← climb steps orLevel ts
    match rest with
    | [] => .error []
    | t :: more =>
      match t.token with
      | .comma => do
        let (es, rest) ← someItems steps more
        pure (e :: es, rest)
      | .rightParen => .ok ([e], more)
      | _ => .error (t :: more)

/-- What follows the word `case`: branches, with a value to compare with before them or
without one. -/
def choice : Nat → Parser Parsed
  | 0, ts => .error ts
  | _ + 1, [] => .error []
  | steps + 1, t :: rest =>
    match t.token with
    | .keyword .when => do
      let (es, rest) ← branches steps rest
      pure (.apply (.case false) es, rest)
    | _ => do
      let (e, rest) ← climb steps orLevel (t :: rest)
      let (_, rest) ← expect .when rest
      let (es, rest) ← branches steps rest
      pure (.apply (.case true) (e :: es), rest)

/-- Tests and values, from the first test up to the end of the branches. -/
def branches : Nat → Parser (List Parsed)
  | 0, ts => .error ts
  | steps + 1, ts => do
    let (test, rest) ← climb steps orLevel ts
    let (_, rest) ← expect .then rest
    let (value, rest) ← climb steps orLevel rest
    match rest with
    | [] => .error []
    | t :: more =>
      match t.token with
      | .keyword .when => do
        let (es, rest) ← branches steps more
        pure (test :: value :: es, rest)
      | .keyword .else => do
        let (last, rest) ← climb steps orLevel more
        let (_, rest) ← expect .end rest
        pure ([test, value, last], rest)
      | .keyword .end => .ok ([test, value], more)
      | _ => .error (t :: more)

def casting : Nat → Parser Parsed
  | 0, ts => .error ts
  | steps + 1, ts => do
    let (_, rest) ← expectLeftParen ts
    let (e, rest) ← climb steps orLevel rest
    let (_, rest) ← expect .as rest
    let (type, rest) ← typeName rest
    let (_, rest) ← typeSize rest
    let (_, rest) ← expectRightParen rest
    pure (.apply (.cast (.ofName type)) [e], rest)

def follow : Nat → Nat → Parsed → Parser Parsed
  | 0, _, _, ts => .error ts
  | _ + 1, _, e, [] => .ok (e, [])
  | steps + 1, least, e, t :: rest =>
    match operator? t.token with
    | some o =>
      -- The right operand binds more tightly, so operators of one level group to the left.
      if least ≤ o.level then do
        let (b, rest) ← climb steps (o.level + 1) rest
        follow steps least (o.join t.offset e b) rest
      else .ok (e, t :: rest)
    | none =>
      match t.token with
      | .keyword .is =>
        if least ≤ equalLevel then do
          let (negated, rest) ← sameness rest
          let (b, rest) ← climb steps orderLevel rest
          follow steps least (.apply (.same negated) [e, b]) rest
        else .ok (e, t :: rest)
      | .keyword .isNull =>
        if least ≤ equalLevel then
          follow steps least (.apply (.same false) [e, .literal .null]) rest
        else .ok (e, t :: rest)
      | .keyword .notNull =>
        if least ≤ equalLevel then
          follow steps least (.apply (.same true) [e, .literal .null]) rest
        else .ok (e, t :: rest)
      | .keyword .not =>
        if least ≤ equalLevel then
          match rest with
          | [] => .error []
          | u :: more =>
            match u.token with
            | .keyword .null => follow steps least (.apply (.same true) [e, .literal .null]) more
            | .keyword .in => do
              let (e, rest) ← membership steps true e more
              follow steps least e rest
            | .keyword (.matching m) => do
              let (e, rest) ← matching steps m true u e more
              follow steps least e rest
            | .keyword .between => do
              let (e, rest) ← range steps true e more
              follow steps least e rest
            | _ => .error (u :: more)
        else .ok (e, t :: rest)
      | .keyword .in =>
        if least ≤ equalLevel then do
          let (e, rest) ← membership steps false e rest
          follow steps least e rest
        else .ok (e, t :: rest)
      | .keyword (.matching m) =>
        if least ≤ equalLevel then do
          let (e, rest) ← matching steps m false t e rest
          follow steps least e rest
        else .ok (e, t :: rest)
      | .keyword .between =>
        if least ≤ equalLevel then do
          let (e, rest) ← range steps false e rest
          follow steps least e rest
        else .ok (e, t :: rest)
      | .keyword .collate =>
        if least ≤ collateLevel then do
          let (c, rest) ← name rest
          follow steps least (collated c e) rest
        else .ok (e, t :: rest)
      | _ => .ok (e, t :: rest)

/-- What a value is to be a member of: the rows of a query, a list or a table. -/
def membership : Nat → Bool → Parsed → Parser Parsed
  | 0, _, _, ts => .error ts
  | _ + 1, _, _, [] => .error []
  | steps + 1, negated, e, t :: rest =>
    match t.token with
    | .leftParen =>
      match rest with
      | [] => .error []
      | u :: more =>
        if beginsQuery u.token then query (.member negated) [e] (u :: more)
        else do
          let (list, rest) ← items steps (u :: more)
          pure (member negated e list, rest)
    | _ => do
      let (ts, rest) ← tableName (t :: rest)
      pure (asking (.member negated) [e] t.offset ts, rest)

/-- A pattern and the character that escapes others in it, if there is one. -/
def matching : Nat → Matching → Bool → Lexeme → Parsed → Parser Parsed
  | 0, _, _, _, _, ts => .error ts
  | steps + 1, m, negated, word, e, ts => do
    let (pattern, rest) ← climb steps orderLevel ts
    match rest with
    | [] => .ok (matched m negated word e pattern none, [])
    | t :: more =>
      match t.token with
      | .keyword .escape => do
        let (escape, rest) ← climb steps orderLevel more
        pure (matched m negated word e pattern (some escape), rest)
      | _ => .ok (matched m negated word e pattern none, t :: more)

def range : Nat → Bool → Parsed → Parser Parsed
  | 0, _, _, ts => .error ts
  | steps + 1, negated, e, ts => do
    -- The lower bound is read above the level of `and`, which separates the bounds.
    let (low, rest) ← climb steps notLevel ts
    match expect .or rest with
    | .ok _ => do
      -- After `or` the bound takes in every `and`, and none is left to separate the bounds.
      let (_, rest) ← follow steps orLevel low rest
      .error rest
    | .error _ => do
      let (_, rest) ← expect .and rest
      let (high, rest) ← climb steps orderLevel rest
      pure (.apply (.between negated) [e, low, high], rest)

end

def expression (ts : List Lexeme) : Except (List Lexeme) (Parsed × List Lexeme) :=
  climb (4 * ts.length + 4) orLevel ts

/-- A semicolon ends a condition, and what follows it is not read. -/
def atEnd : List Lexeme → Bool
  | [] => true
  | t :: _ =>
    match t.token with
    | .semicolon => true
    | _ => false

/-- The place of the first parameter with a number out of range. A token that cannot
follow it is noticed first, so the token after the parameter must have been read. -/
def badParameter? : List Lexeme → Option Nat
  | [] => none
  | t :: rest =>
    match t.token with
    | .parameter (.numbered n) _ =>
      if 1 ≤ n ∧ n ≤ greatestParameter then badParameter? rest else some t.offset
    | _ => badParameter? rest

def parameterCount : List Lexeme → Nat
  | [] => 0
  | t :: rest =>
    match t.token with
    | .parameter _ index => max index (parameterCount rest)
    | _ => parameterCount rest

/-- A condition that has been read: its expression and its count of parameters. -/
structure Read where
  expr : Parsed
  parameters : Nat

def refusal (statement : String) (base : Nat) : List Lexeme → Fault
  | [] => .incomplete
  | t :: _ =>
    match t.token with
    | .stray => .located (.unrecognized t.spelling) statement (base + t.offset)
    | _ => .located (.unexpected t.spelling) statement (base + t.offset)

def read (statement : String) (base : Nat) (condition : String) : Except Fault Read :=
  let ts := Numbering.empty.apply (lexemes condition)
  let badNumber (offset : Nat) : Fault := .located .parameterNumber statement (base + offset)
  -- The parameter just before the refused token has not been looked at yet.
  let refused (rest : List Lexeme) : Except Fault Read :=
    match badParameter? ((ts.take (ts.length - rest.length)).dropLast) with
    | some offset => .error (badNumber offset)
    | none => .error (refusal statement base rest)
  match expression ts with
  | .error rest => refused rest
  | .ok (e, rest) =>
    if atEnd rest then
      let consumed := ts.take (ts.length - rest.length)
      match badParameter? consumed with
      | some offset => .error (badNumber offset)
      | none => .ok ⟨e, parameterCount consumed⟩
    else refused rest

end Condition

end ObsCatalog.Sql
