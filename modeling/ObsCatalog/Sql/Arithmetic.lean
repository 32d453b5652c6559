import ObsCatalog.Sql.Affinity

/-! Arithmetic.

Text counts as the number at its start and null makes the result null. Integers are
calculated with exactly where the result is one, and as reals where it is not. A
division by zero is null.
-/

set_option autoImplicit false

namespace ObsCatalog.Sql

open Text

inductive Arithmetic where
  | add
  | subtract
  | multiply
  | divide
  | remainder
  | bitAnd
  | bitOr
  | shiftLeft
  | shiftRight
  deriving DecidableEq, Repr

namespace Cell

def clamped (n : Int) : Int64 :=
  if n < Int64.minValue.toInt then Int64.minValue
  else if Int64.maxValue.toInt < n then Int64.maxValue
  else Int64.ofInt n

def fits (n : Int) : Bool := Int64.minValue.toInt ≤ n && n ≤ Int64.maxValue.toInt

def truncated (x : Float) : Int64 :=
  let whole := Real.magnitude x / Real.unitsPerOne
  clamped (if Real.isNegative x then -(whole : Int) else whole)

/-- The digits at the start of a text as an integer. -/
def leadingInteger (s : String) : Int64 :=
  let unsigned (cs : List Char) : Int := number (cs.takeWhile Char.isDigit)
  clamped <|
    match s.toList.dropWhile isSpace with
    | '-' :: rest => -unsigned rest
    | '+' :: rest => unsigned rest
    | rest => unsigned rest

def written (c : Cell) : String :=
  match c.texted with
  | .text s => s
  | other => lossy (decode other.bytes)

def shown (c : Cell) : List Char := c.written.toList.takeWhile (· != '\x00')

def toInteger : Cell → Int64
  | .null => 0
  | .integer n => n
  | .real x => truncated x
  | c => leadingInteger c.written

def toReal (c : Cell) : Float :=
  match c.number? with
  | some (.integer n) => Real.ofInt n.toInt
  | some (.real x) => x
  | _ => 0.0

/-- A result that is no number is null. -/
def ofReal (x : Float) : Cell := if x.isNaN then .null else .real x

def ofInteger (n : Int) (otherwise : Float) : Cell :=
  if fits n then .integer (Int64.ofInt n) else ofReal otherwise

/-- The bits of an integer that stay when the others are turned around. -/
def complement : Cell → Cell
  | .null => .null
  | c => .integer (~~~c.toInteger)

def concatenated (a b : Cell) : Cell :=
  if a.isNull || b.isNull then .null else ofTextBytes (a.texted.bytes ++ b.texted.bytes)

end Cell

namespace Arithmetic

/-- Shift by a count; a negative count shifts the other way. The sign comes in from the
left. -/
def shifted (left : Bool) (n count : Int64) : Int64 :=
  let towards := if count.toInt < 0 then !left else left
  let places := count.toInt.natAbs
  if 64 ≤ places then if towards || 0 ≤ n.toInt then 0 else -1
  else if towards then n <<< Int64.ofNat places
  else n >>> Int64.ofNat places

def integers (m n : Int) : Arithmetic → Cell
  | .add => .ofInteger (m + n) (Real.ofInt m + Real.ofInt n)
  | .subtract => .ofInteger (m - n) (Real.ofInt m - Real.ofInt n)
  | .multiply => .ofInteger (m * n) (Real.ofInt m * Real.ofInt n)
  | .divide => if n = 0 then .null else .ofInteger (m.tdiv n) (Real.ofInt m / Real.ofInt n)
  | .remainder => if n = 0 then .null else .integer (Int64.ofInt (m.tmod n))
  | _ => .null

def reals (a b : Cell) : Arithmetic → Cell
  | .add => .ofReal (a.toReal + b.toReal)
  | .subtract => .ofReal (a.toReal - b.toReal)
  | .multiply => .ofReal (a.toReal * b.toReal)
  | .divide => if Real.magnitude b.toReal = 0 then .null else .ofReal (a.toReal / b.toReal)
  -- The remainder is one of integers all the same.
  | .remainder =>
    if b.toInteger = 0 then .null
    else .real (Real.ofInt (a.toInteger.toInt.tmod b.toInteger.toInt))
  | _ => .null

def numbers (o : Arithmetic) (a b : Cell) : Cell :=
  match a.number?, b.number? with
  | some (.integer m), some (.integer n) => integers m.toInt n.toInt o
  | some _, some _ => reals a b o
  | _, _ => .null

def apply (o : Arithmetic) (a b : Cell) : Cell :=
  let bits (f : Int64 → Int64 → Int64) : Cell :=
    if a.isNull || b.isNull then .null else .integer (f a.toInteger b.toInteger)
  match o with
  | .bitAnd => bits (· &&& ·)
  | .bitOr => bits (· ||| ·)
  | .shiftLeft => bits (shifted true)
  | .shiftRight => bits (shifted false)
  | _ => o.numbers a b

end Arithmetic

/-- The kinds of types to which a value can be cast. -/
inductive CastType where
  | text
  | numeric
  | integer
  | real
  | blob
  deriving DecidableEq, Repr

namespace CastType

def ofName (name : String) : CastType :=
  let cs := name.toList.map Char.toLower
  let contains (word : String) : Bool :=
    (List.range cs.length).any fun i => word.toList.isPrefixOf (cs.drop i)
  if contains "int" then .integer
  else if contains "char" || contains "clob" || contains "text" then .text
  else if contains "blob" then .blob
  else if contains "real" || contains "floa" || contains "doub" then .real
  else .numeric

def affinity : CastType → Affinity
  | .text => .text
  | .numeric => .integer
  | .integer => .integer
  | .real => .real
  | .blob => .none

/-- Reals up to here are cast to the integers that they are. -/
def exactReals : Nat := Nat.pow 2 51

/-- The number at the start of a text; a real that is a whole number becomes one. -/
def number (c : Cell) : Cell :=
  match c.number? with
  | some (.real x) =>
    match Real.whole? x with
    | some n =>
      if -(exactReals : Int) ≤ n ∧ n < exactReals then .integer (Int64.ofInt n) else .real x
    | none => .real x
  | some n => n
  | none => .null

def apply (t : CastType) (c : Cell) : Cell :=
  match t, c with
  | _, .null => .null
  | .text, c => c.asText.texted
  | .blob, c => .blob c.texted.bytes
  | .integer, c => .integer c.toInteger
  | .real, c => .real c.toReal
  | .numeric, .integer n => .integer n
  | .numeric, .real x => .real x
  | .numeric, c => number c

end CastType

end ObsCatalog.Sql
