/-! Exact values of double-precision numbers.

Every finite number is a whole multiple of the least positive one, 2^-1074.
Measured in that unit numbers compare, round and print in exact arithmetic. An
infinity takes the place of the first power of two that is too large.
-/

set_option autoImplicit false

namespace ObsCatalog.Real

def fractionBits (x : Float) : Nat := x.toBits.toNat % Nat.pow 2 52

def exponentBits (x : Float) : Nat := x.toBits.toNat / Nat.pow 2 52 % Nat.pow 2 11

def isNegative (x : Float) : Bool := Nat.pow 2 63 ≤ x.toBits.toNat

/-- The significand, with the leading bit that normal numbers leave out. -/
def significand (x : Float) : Nat :=
  if exponentBits x = 0 then fractionBits x else Nat.pow 2 52 + fractionBits x

/-- The power of two, in least units, that the significand is multiplied by. -/
def scale (x : Float) : Nat := exponentBits x - 1

def magnitude (x : Float) : Nat := significand x * Nat.pow 2 (scale x)

/-- The value in units of 2^-1074. -/
def units (x : Float) : Int :=
  if isNegative x then -(magnitude x : Int) else magnitude x

def unitExponent : Nat := 1074

def unitsPerOne : Nat := Nat.pow 2 unitExponent

/-- The nearest whole number; a half goes away from zero. -/
def round (x : Float) : Int :=
  let whole := (magnitude x + unitsPerOne / 2) / unitsPerOne
  if isNegative x then -(whole : Int) else whole

def isWhole (x : Float) : Bool := x.isFinite && magnitude x % unitsPerOne == 0

def whole? (x : Float) : Option Int := if isWhole x then some (round x) else none

def intUnits (n : Int) : Int := n * unitsPerOne

/-- The double nearest to an integer; a half goes to the even significand. -/
def ofInt (n : Int) : Float := .ofModel (.ofInt n)

theorem unitsPerOne_pos : 0 < unitsPerOne := by
  unfold unitsPerOne
  generalize unitExponent = n
  exact Nat.two_pow_pos n

theorem intUnits_injective {m n : Int} (same : intUnits m = intUnits n) : m = n :=
  Int.eq_of_mul_eq_mul_right (Int.natCast_ne_zero.2 (Nat.ne_of_gt unitsPerOne_pos)) same

end ObsCatalog.Real
