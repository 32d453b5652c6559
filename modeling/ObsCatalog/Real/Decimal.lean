import ObsCatalog.Real.Binary64
import ObsCatalog.Text.Digits

/-! Decimal forms of double-precision numbers.

The shortest form has the fewest significant digits that read back as the same
number and is the nearest such decimal. A rounded form has a fixed count of
significant digits. Both are computed in exact arithmetic.
-/

set_option autoImplicit false

namespace ObsCatalog.Real

open Text

/-- The number `coefficient * 10 ^ exponent`. -/
structure Decimal where
  coefficient : Nat
  exponent : Int
  deriving DecidableEq, Repr

namespace Decimal

def trimmed (d : Decimal) : Decimal :=
  if h : d.coefficient ≠ 0 ∧ d.coefficient % 10 = 0 then
    trimmed ⟨d.coefficient / 10, d.exponent + 1⟩
  else d
termination_by d.coefficient
decreasing_by omega

/-- How many digits stand before the point in positional form; negative when zeros
follow the point. -/
def pointPosition (d : Decimal) : Int := (digits d.coefficient).length + d.exponent

def positional (d : Decimal) : List Char × List Char :=
  let ds := digits d.coefficient
  let point := d.pointPosition
  if point ≤ 0 then ([ '0' ], List.replicate point.natAbs '0' ++ ds)
  else
    let filled := ds ++ List.replicate (point.toNat - ds.length) '0'
    (filled.take point.toNat, filled.drop point.toNat)

end Decimal

/-- The numbers whose nearest double is the given positive one: the number itself
and the ends of the interval, in units of 2^-1076. The ends belong to the interval
when the significand is even. -/
structure Neighbourhood where
  value : Nat
  below : Nat
  above : Nat
  closed : Bool

def neighbourhood (x : Float) : Neighbourhood :=
  let gap := Nat.pow 2 (scale x)
  let value := 4 * magnitude x
  -- Below a power of two the numbers lie twice as close.
  let narrow := fractionBits x = 0 ∧ 1 < exponentBits x
  ⟨value, value - (if narrow then gap else 2 * gap), value + 2 * gap, significand x % 2 = 0⟩

def unit : Nat := 4 * unitsPerOne

/-- The least `p` with the value below 10^p; the value is positive. -/
def decimalMagnitude (value : Nat) : Int :=
  (digits (value * Nat.pow 10 400 / unit)).length - 400

/-- The two decimals with exponent `k` next to a value, each with its distance, for
those that lie in the neighbourhood. -/
def Neighbourhood.candidates (n : Neighbourhood) (k : Int) : List (Decimal × Nat) :=
  let up := Nat.pow 10 (-k).toNat
  let step := unit * Nat.pow 10 k.toNat
  let value := n.value * up
  let q := value / step
  let inside (c : Nat) : Bool :=
    if n.closed then n.below * up ≤ c * step && c * step ≤ n.above * up
    else n.below * up < c * step && c * step < n.above * up
  [(q, value - q * step), (q + 1, (q + 1) * step - value)].filterMap fun (c, distance) =>
    if inside c then some (⟨c, k⟩, distance) else none

inductive TieRule where
  | even
  | up
  deriving DecidableEq, Repr

def nearest (tie : TieRule) : List (Decimal × Nat) → Option Decimal
  | [] => none
  | [(d, _)] => some d
  | (low, below) :: (high, above) :: _ =>
    if below < above then some low
    else if above < below then some high
    else match tie with
      | .up => some high
      | .even => if low.coefficient % 2 = 0 then some low else some high

/-- The shortest decimal that reads back as the positive finite number. Seventeen
digits always suffice. -/
def shortest (tie : TieRule) (x : Float) : Decimal :=
  let n := neighbourhood x
  let p := decimalMagnitude n.value
  -- Decimals of one digit are tried first, then those of two, and so on.
  let found := (List.range 17).findSome? fun i => nearest tie (n.candidates (p - (i + 1 : Nat)))
  (found.getD ⟨0, 0⟩).trimmed

/-- The decimal with `count` significant digits nearest to the positive finite
number; a half goes up. -/
def rounded (count : Nat) (x : Float) : Decimal :=
  let value := 4 * magnitude x
  let k := decimalMagnitude value - (count : Int)
  let step := unit * Nat.pow 10 k.toNat
  (Decimal.mk ((value * Nat.pow 10 (-k).toNat + step / 2) / step) k).trimmed

structure RealFormat where
  /-- Exponents of the leading digit that are written in positional form. -/
  isPositional : Int → Bool
  /-- Whole numbers end in a point and a zero. -/
  pointZero : Bool
  /-- A one-digit coefficient before an exponent is followed by a point and a zero. -/
  mantissaPointZero : Bool
  /-- The least count of digits of an exponent. -/
  exponentDigits : Nat

namespace RealFormat

def exponentText (f : RealFormat) (e : Int) : List Char :=
  'e' :: (if e < 0 then '-' else '+') :: padded f.exponentDigits e.natAbs

def write (f : RealFormat) (d : Decimal) : List Char :=
  let leading := d.pointPosition - 1
  if f.isPositional leading then
    match d.positional with
    | (before, []) => if f.pointZero then before ++ ['.', '0'] else before
    | (before, after) => before ++ '.' :: after
  else
    match digits d.coefficient with
    | [] => []
    | [c] => c :: (if f.mantissaPointZero then ['.', '0'] else []) ++ f.exponentText leading
    | c :: rest => c :: '.' :: rest ++ f.exponentText leading

end RealFormat

end ObsCatalog.Real
