import ObsCatalog.Sql.Affinity

/-! Collations.

A collation orders texts: by their bytes, with the case of ASCII letters ignored, or
without the blanks at their ends. Other values are ordered as they are.
-/

set_option autoImplicit false

namespace ObsCatalog.Sql

inductive Collation where
  | binary
  | noCase
  | rightTrim
  deriving DecidableEq, Repr

inductive Comparison where
  | equal
  | notEqual
  | less
  | lessEqual
  | greater
  | greaterEqual
  deriving DecidableEq, Repr

def Comparison.holds : Comparison → Ordering → Bool
  | .equal, o => o == .eq
  | .notEqual, o => o != .eq
  | .less, o => o == .lt
  | .lessEqual, o => o != .gt
  | .greater, o => o == .gt
  | .greaterEqual, o => o != .lt

namespace Collation

def named? (name : String) : Option Collation :=
  match String.ofList (name.toList.map Char.toLower) with
  | "binary" => some .binary
  | "nocase" => some .noCase
  | "rtrim" => some .rightTrim
  | _ => none

def folded (b : UInt8) : UInt8 := if 65 ≤ b ∧ b ≤ 90 then b + 32 else b

/-- The order of bytes where capitals are small letters. After a zero byte only the
lengths count. -/
def compareFolded : List UInt8 → List UInt8 → Ordering
  | [], [] => .eq
  | [], _ :: _ => .lt
  | _ :: _, [] => .gt
  | x :: xs, y :: ys =>
    if folded x = folded y then
      if x = 0 then compare xs.length ys.length else compareFolded xs ys
    else compare (folded x).toNat (folded y).toNat

def trimmed (bytes : List UInt8) : List UInt8 := (bytes.reverse.dropWhile (· == 32)).reverse

def order (collation : Collation) (a b : Cell) : Ordering :=
  match collation with
  | .binary => a.order b
  | .noCase => if a.isText && b.isText then compareFolded a.bytes b.bytes else a.order b
  | .rightTrim =>
    if a.isText && b.isText then Cell.order.compareBytes (trimmed a.bytes) (trimmed b.bytes)
    else a.order b

end Collation

namespace Cell

/-- Compare cells under a conversion. With null the result is unknown. -/
def compared (conversion : Affinity.Conversion) (c : Comparison) (a b : Cell)
    (collation : Collation := .binary) : Option Bool :=
  if a.isNull || b.isNull then none
  else
    let (a, b) := conversion.apply a b
    some (c.holds (collation.order a b))

/-- Sameness under a conversion, where null is the same as null. -/
def sameAs (conversion : Affinity.Conversion) (a b : Cell) (collation : Collation := .binary) :
    Bool :=
  if a.isNull || b.isNull then a.isNull && b.isNull
  else
    let (a, b) := conversion.apply a b
    collation.order a b == .eq

end Cell

end ObsCatalog.Sql
