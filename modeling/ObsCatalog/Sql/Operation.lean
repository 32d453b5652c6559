import ObsCatalog.Sql.Arithmetic
import ObsCatalog.Sql.Collation
import ObsCatalog.Sql.Fault
import ObsCatalog.Sql.Pattern

/-! Operations.

What comes of an expression is a value, or a failure on the values of a row. Where only
its truth is asked for, an operand that cannot change it any more is not looked at, so
that the truth may be known although the value is not. Truth has three values, of which
null is the unknown one.
-/

set_option autoImplicit false

namespace ObsCatalog.Sql

namespace Truth

def not : Option Bool → Option Bool
  | some b => some !b
  | none => none

def and : Option Bool → Option Bool → Option Bool
  | some false, _ => some false
  | _, some false => some false
  | some true, some true => some true
  | _, _ => none

def or : Option Bool → Option Bool → Option Bool
  | some true, _ => some true
  | _, some true => some true
  | some false, some false => some false
  | _, _ => none

def negatedIf (negated : Bool) (t : Option Bool) : Option Bool := if negated then not t else t

abbrev Attempt := Except Fault (Option Bool)

/-- Both hold. In haste the second is not looked at where the first is false. -/
def both (hasty : Bool) (a b : Attempt) : Attempt := do
  let first ← a
  if hasty && first == some false then pure (some false) else pure (and first (← b))

/-- One of two holds. In haste the second is not looked at where the first is true. -/
def either (hasty : Bool) (a b : Attempt) : Attempt := do
  let first ← a
  if hasty && first == some true then pure (some true) else pure (or first (← b))

end Truth

open Truth (Attempt both either)

/-- What comes of an expression with one value, and how the value wants to be compared. -/
structure Scalar where
  value : Except Fault Cell
  truth : Attempt
  affinity : Option Affinity
  collation : Option Collation

/-- What comes of an expression. A row of values has parts instead of a value. -/
structure Outcome extends Scalar where
  parts : List Scalar

namespace Scalar

def ofValue (value : Except Fault Cell) (collation : Option Collation := none) : Scalar :=
  ⟨value, value.map Cell.truth?, none, collation⟩

def ofTruth (truth : Bool → Attempt) (collation : Option Collation) : Scalar :=
  ⟨(truth false).map Cell.ofTruth, truth true, none, collation⟩

def sense (s : Scalar) (hasty : Bool) : Attempt :=
  if hasty then s.truth else s.value.map Cell.truth?

/-- The collation of the left operand goes before that of the right one. -/
def compared (c : Comparison) (x y : Scalar) : Attempt := do
  let a ← x.value
  let b ← y.value
  pure (a.compared (Affinity.conversion x.affinity y.affinity) c b
    ((x.collation <|> y.collation).getD .binary))

def sameAs (x y : Scalar) : Except Fault Bool := do
  let a ← x.value
  let b ← y.value
  pure (a.sameAs (Affinity.conversion x.affinity y.affinity) b
    ((x.collation <|> y.collation).getD .binary))

/-- Whether a cell equals one that is listed, where this value is looked for. The last value
that is listed tells how both are converted. -/
def equalsListed (x last : Scalar) (a b : Cell) : Option Bool :=
  let conversion := Affinity.conversion x.affinity last.affinity
  (conversion.cell a).compared .none .equal (conversion.cell b)
    ((x.collation <|> last.collation).getD .binary)

/-- Rows are compared place by place, and the first place that differs decides. -/
def compareParts (c : Comparison) : List Scalar → List Scalar → Attempt
  | [x], [y] => x.compared c y
  | x :: xs, y :: ys =>
    match c with
    | .equal => both true (x.compared .equal y) (compareParts c xs ys)
    | .notEqual => either true (x.compared .notEqual y) (compareParts c xs ys)
    | c => do
      match ← x.compared .equal y with
      | some true => compareParts c xs ys
      | _ => x.compared c y
  | _, _ => .error .rowMisused

def sameParts : List Scalar → List Scalar → Except Fault Bool
  | [], [] => .ok true
  | x :: xs, y :: ys => do
    if ← x.sameAs y then sameParts xs ys else pure false
  | _, _ => .error .rowMisused

end Scalar

namespace Outcome

def ofScalar (s : Scalar) : Outcome := ⟨s, []⟩

def ofCell (c : Cell) : Outcome := ofScalar (.ofValue (.ok c))

def failed (fault : Fault) : Outcome := ofScalar (.ofValue (.error fault))

def compared (c : Comparison) (x y : Outcome) : Attempt :=
  match x.parts, y.parts with
  | [], [] => x.toScalar.compared c y.toScalar
  | xs, ys => Scalar.compareParts c xs ys

def sameAs (x y : Outcome) : Except Fault Bool :=
  match x.parts, y.parts with
  | [], [] => x.toScalar.sameAs y.toScalar
  | xs, ys => Scalar.sameParts xs ys

def plain (x : Outcome) : Outcome :=
  let plain (s : Scalar) : Scalar := { s with affinity := none, collation := none }
  ⟨plain x.toScalar, x.parts.map plain⟩

/-- The value is one of some. They are looked at up to the first that is equal. -/
def isMember (x : Outcome) : List Outcome → Attempt
  | [] => .ok (some false)
  | item :: rest => either true (x.compared .equal item.plain) (x.isMember rest)

def cells (x : Outcome) : Except Fault (List Cell) := x.parts.mapM (·.value)

def equalRows : List (Cell → Cell → Option Bool) → List Cell → List Cell → Option Bool
  | test :: tests, a :: left, b :: right => Truth.and (test a b) (equalRows tests left right)
  | _, _, _ => some true

/-- The row is one of those that are listed, which are all known before it is itself. -/
def isListed (x : Outcome) (items : List Outcome) : Attempt := do
  let rows ← items.mapM (·.cells)
  let row ← x.cells
  let tests := List.zipWith Scalar.equalsListed x.parts (items.getLast?.elim [] (·.parts))
  pure (rows.foldr (fun other found => Truth.or (equalRows tests row other) found) (some false))

/-- The value after the first test that holds. What is left after all tests stands for the
case that none does. -/
def choose (test : Outcome → Attempt) : List Outcome → Except Fault Cell
  | [] => .ok .null
  | [last] => last.value
  | when :: value :: rest => do
    match ← test when with
    | some true => value.value
    | _ => choose test rest

def greatestPattern : Nat := 50000

def checkPattern (pattern : Cell) : Except Fault Unit :=
  if greatestPattern < pattern.texted.bytes.length then
    .error (.raised ⟨"LIKE or GLOB pattern too complex", by decide⟩)
  else .ok ()

/-- The character that an operand stands for; null stands for none. -/
def single (c : Cell) : Except Fault (Option Char) :=
  match c, c.shown with
  | .null, _ => .ok none
  | _, [mark] => .ok (some mark)
  | _, _ => .error (.raised ⟨"ESCAPE expression must be a single character", by decide⟩)

def fitsShown (fits : List Char → List Char → Bool) (text pattern : Cell) : Option Bool :=
  if text.isNull || pattern.isNull then none else some (fits pattern.shown text.shown)

def matched (fits : List Char → List Char → Bool) (text pattern : Outcome) : Attempt := do
  let text ← text.value
  let pattern ← pattern.value
  checkPattern pattern
  pure (fitsShown fits text pattern)

def likes (escape : Option Char) (pattern text : List Char) : Bool :=
  Piece.fits true (Piece.likePieces escape pattern) text

def globs (pattern text : List Char) : Bool :=
  Piece.fits false (Piece.globPieces pattern.length pattern) text

/-- A text is matched with a pattern in which a character makes the next one stand for
itself. -/
def matchedEscaped (text pattern escape : Outcome) : Attempt := do
  let text ← text.value
  let pattern ← pattern.value
  let escape ← escape.value
  checkPattern pattern
  match ← single escape with
  | some mark => pure (fitsShown (likes (some mark)) text pattern)
  | none => pure none

end Outcome

inductive Operation where
  | negate
  | plus
  | complement
  | not
  | and
  | or
  | compare (c : Comparison)
  | same (negated : Bool)
  | between (negated : Bool)
  | member (negated : Bool)
  /-- A row of values among rows that are listed. -/
  | listed (negated : Bool)
  | arithmetic (a : Arithmetic)
  | concat
  | like (negated : Bool)
  | glob (negated : Bool)
  | collate (c : Collation)
  | cast (t : CastType)
  /-- Tests and values, and before them a value to compare the tests with, or none. -/
  | case (compares : Bool)
  | row
  deriving DecidableEq

namespace Operation

def negatedIf (negated : Bool) (t : Attempt) : Attempt := t.map (Truth.negatedIf negated)

def truth? (hasty : Bool) : Operation → List Outcome → Option Attempt
  | .not, [x] => some ((x.sense hasty).map Truth.not)
  | .and, [x, y] => some (both hasty (x.sense hasty) (y.sense hasty))
  | .or, [x, y] => some (either hasty (x.sense hasty) (y.sense hasty))
  | .compare c, [x, y] => some (x.compared c y)
  | .same negated, [x, y] => some (negatedIf negated ((x.sameAs y).map some))
  | .between negated, [x, low, high] =>
    some (negatedIf negated
      (both hasty (x.compared .greaterEqual low) (x.compared .lessEqual high)))
  | .member negated, x :: items => some (negatedIf negated (x.isMember items))
  | .listed negated, x :: items => some (negatedIf negated (x.isListed items))
  | .like negated, [text, pattern] =>
    some (negatedIf negated (Outcome.matched (Outcome.likes none) text pattern))
  | .like negated, [text, pattern, escape] =>
    some (negatedIf negated (Outcome.matchedEscaped text pattern escape))
  | .glob negated, [text, pattern] =>
    some (negatedIf negated (Outcome.matched Outcome.globs text pattern))
  | _, _ => none

/-- The value, where an operation is one that has no truth of its own. -/
def value : Operation → List Outcome → Except Fault Cell
  | .negate, [x] => x.value.map Cell.negated
  | .plus, [x] => x.value
  | .collate _, [x] => x.value
  | .complement, [x] => x.value.map Cell.complement
  | .cast t, [x] => x.value.map t.apply
  | .arithmetic o, [x, y] => do
    let a ← x.value
    let b ← y.value
    pure (o.apply a b)
  | .concat, [x, y] => do
    let a ← x.value
    let b ← y.value
    pure (a.concatenated b)
  | .case true, x :: rest => Outcome.choose (x.compared .equal ·) rest
  | .case false, rest => Outcome.choose (·.truth) rest
  | _, _ => .error .rowMisused

def affinity : Operation → List Outcome → Option Affinity
  | .cast t, _ => some t.affinity
  | .collate _, [x] => x.affinity
  | _, _ => none

/-- The collation is that of the first operand that has one. -/
def collation : Operation → List Outcome → Option Collation
  | .collate c, _ => some c
  | _, operands => operands.findSome? (·.collation)

def apply (o : Operation) (operands : List Outcome) : Outcome :=
  let collation := o.collation operands
  match o, o.truth? false operands, o.truth? true operands with
  | .row, _, _ => { Outcome.failed .rowMisused with parts := operands.map (·.toScalar) }
  | _, some full, some hasty => .ofScalar (.ofTruth (fun h => if h then hasty else full) collation)
  | o, _, _ =>
    .ofScalar { Scalar.ofValue (o.value operands) collation with affinity := o.affinity operands }

/-- The widths of operands that an operation takes: rows stand only next to rows of the same
width. -/
def admits : Operation → List Nat → Bool
  | .compare _, [m, n] | .same _, [m, n] => m == n
  | .between _, [n, low, high] => n == low && n == high
  | .listed _, n :: items => items.all (· == n)
  | .case true, n :: rest => admitsBranches n rest
  | _, widths => widths.all (· == 1)
where
  admitsBranches (n : Nat) : List Nat → Bool
    | [] => true
    | [last] => last == 1
    | test :: value :: rest => test == n && value == 1 && admitsBranches n rest

def width (o : Operation) (operands : List Nat) : Option Nat :=
  if !o.admits operands then none
  else
    match o with
    | .row => some operands.length
    | _ => some 1

end Operation

end ObsCatalog.Sql
