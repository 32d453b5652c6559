import ObsCatalog.Catalog.Value
import ObsCatalog.Real.Literal
import ObsCatalog.Text.Symbol

/-! Stored values.

A cell holds a value as a database keeps it: there is no not-a-number, and text may
be bytes that encode no characters. Cells are ordered by kind, then numbers by value
and texts and blobs by their bytes.
-/

set_option autoImplicit false

namespace ObsCatalog.Sql

open Text

inductive Cell where
  | null
  | integer (n : Int64)
  | real (x : Float)
  | text (s : String)
  /-- Text whose bytes are not valid. -/
  | mangled (bytes : List UInt8)
  | blob (bytes : List UInt8)

namespace Cell

/-- The cell that keeps a value; not-a-number becomes null. -/
def ofValue : Value → Cell
  | .null => .null
  | .integer n => .integer n
  | .real x => if x.isNaN then .null else .real x
  | .text s => .text s
  | .blob bytes => .blob bytes

def value : Cell → Value
  | .null => .null
  | .integer n => .integer n
  | .real x => .real x
  | .text s => .text s
  | .mangled bytes => .text (lossy (decode bytes))
  | .blob bytes => .blob bytes

def ofTextBytes (bytes : List UInt8) : Cell :=
  match exactly? (decode bytes) with
  | some s => .text s
  | none => .mangled bytes

def asText : Cell → Cell
  | .blob bytes => ofTextBytes bytes
  | c => c

def kindName : Cell → String
  | .null => "Null"
  | .integer _ => "Integer"
  | .real _ => "Real"
  | .text _ => "Text"
  | .mangled _ => "Text"
  | .blob _ => "Blob"

def isNull : Cell → Bool
  | .null => true
  | _ => false

def isText : Cell → Bool
  | .text _ => true
  | .mangled _ => true
  | _ => false

/-- Leading digits from 10^-4 to below 10^15 are written in positional form. -/
def realFormat : Real.RealFormat where
  isPositional e := -4 ≤ e ∧ e < 15
  pointZero := true
  mantissaPointZero := true
  exponentDigits := 2

/-- A real in text, with at most fifteen digits. -/
def realText (x : Float) : String :=
  let sign := if Real.isNegative x ∧ Real.magnitude x ≠ 0 then ['-'] else []
  if !x.isFinite then String.ofList (sign ++ ['I', 'n', 'f'])
  else if Real.magnitude x = 0 then "0.0"
  else String.ofList (sign ++ realFormat.write (Real.rounded 15 x))

def isSpace (c : Char) : Bool := c == ' ' || (9 ≤ c.toNat && c.toNat ≤ 13)

/-- The number that a literal writes: an integer if it has neither point nor exponent
and fits, else the nearest real. -/
def ofLiteral (negative : Bool) (l : Real.Literal) : Cell :=
  let n : Int := if negative then -(number l.whole : Int) else number l.whole
  let exact := l.fraction.isNone && l.exponent.isNone
  if exact ∧ Int64.minValue.toInt ≤ n ∧ n ≤ Int64.maxValue.toInt then .integer (Int64.ofInt n)
  else .real (if negative then -l.value else l.value)

/-- The number at the start of a text and what follows it, if there is one. -/
def scanNumber (cs : List Char) : Option (Cell × List Char) :=
  let unsigned (negative : Bool) (cs : List Char) : Option (Cell × List Char) :=
    let (l, rest) := Real.Literal.scan cs
    if l.hasDigits then some (ofLiteral negative l, rest) else none
  match cs.dropWhile isSpace with
  | '-' :: rest => unsigned true rest
  | '+' :: rest => unsigned false rest
  | rest => unsigned false rest

def numberOfText? (s : String) : Option Cell :=
  match scanNumber s.toList with
  | some (c, rest) => if rest.all isSpace then some c else none
  | none => none

/-- A text that writes a number, as that number; other cells as they are. -/
def numeric : Cell → Cell
  | .text s => (numberOfText? s).getD (.text s)
  | c => c

def leadingNumber (s : String) : Cell :=
  match scanNumber s.toList with
  | some (c, _) => c
  | none => .integer 0

def number? : Cell → Option Cell
  | .null => none
  | .integer n => some (.integer n)
  | .real x => some (.real x)
  | .text s => some (leadingNumber s)
  | .mangled bytes => some (leadingNumber (lossy (decode bytes)))
  | .blob bytes => some (leadingNumber (lossy (decode bytes)))

/-- The value of a number, in units of 2^-1074. -/
def units? : Cell → Option Int
  | .integer n => some (Real.intUnits n.toInt)
  | .real x => some (Real.units x)
  | _ => none

/-- Whether a cell counts as true; null is neither. -/
def truth? (c : Cell) : Option Bool :=
  c.number?.map fun n => (n.units?.getD 0) ≠ 0

def ofBool (b : Bool) : Cell := .integer (if b then 1 else 0)

def ofTruth : Option Bool → Cell
  | some b => ofBool b
  | none => .null

@[simp] theorem truth?_integer (n : Int64) : (integer n).truth? = some (n.toInt != 0) := by
  have zero : Real.intUnits n.toInt = 0 ↔ n.toInt = 0 := by
    have none : Real.intUnits 0 = 0 := Int.zero_mul _
    exact ⟨fun same => Real.intUnits_injective (same.trans none.symm),
      fun same => by rw [same, none]⟩
  show some (decide (Real.intUnits n.toInt ≠ 0)) = some (n.toInt != 0)
  by_cases none : n.toInt = 0
  · rw [decide_eq_false fun some => some (zero.2 none), none]
    rfl
  · rw [decide_eq_true (mt zero.1 none), bne_iff_ne.2 none]

@[simp] theorem truth?_ofBool (b : Bool) : (ofBool b).truth? = some b := by
  cases b <;> simp [ofBool]

/-- The number with the opposite sign. The least integer has no opposite among the
integers. -/
def negated (c : Cell) : Cell :=
  match c.number? with
  | some (.integer n) =>
    if n = Int64.minValue then .real (-Real.ofInt n.toInt) else .integer (-n)
  | some (.real x) => .real (0.0 - x)
  | _ => .null

def rank : Cell → Nat
  | .null => 0
  | .integer _ => 1
  | .real _ => 1
  | .text _ => 2
  | .mangled _ => 2
  | .blob _ => 3

def bytes : Cell → List UInt8
  | .text s => s.toUTF8.toList
  | .mangled bytes => bytes
  | .blob bytes => bytes
  | _ => []

def order (a b : Cell) : Ordering :=
  (compare a.rank b.rank).then
    ((compare (a.units?.getD 0) (b.units?.getD 0)).then (compareBytes a.bytes b.bytes))
where
  compareBytes : List UInt8 → List UInt8 → Ordering
    | [], [] => .eq
    | [], _ :: _ => .lt
    | _ :: _, [] => .gt
    | x :: xs, y :: ys => (compare x.toNat y.toNat).then (compareBytes xs ys)

/-- The text of a number; other cells as they are. -/
def texted : Cell → Cell
  | .integer n => .text (integerText n.toInt)
  | .real x => .text (realText x)
  | c => c

end Cell

end ObsCatalog.Sql
