import ObsCatalog.Real.Decimal

/-! Decimal literals as double-precision numbers.

A literal is read as the double nearest to the number that it writes; an exact
half goes to the even significand. Numbers too large become infinite, numbers too
small become zero.
-/

set_option autoImplicit false

namespace ObsCatalog.Real

open Text

def infinity : Float := 1.0 / 0.0

def ofDecimal (d : Decimal) : Float :=
  if d.coefficient = 0 then 0.0
  -- Far from the range of doubles the power of ten need not be computed.
  else if 400 < d.pointPosition then infinity
  else if d.pointPosition < -400 then 0.0
  else Float.ofScientific d.coefficient (d.exponent < 0) d.exponent.natAbs

structure Literal where
  whole : List Char
  /-- The digits after a point; absent when there is no point. -/
  fraction : Option (List Char)
  exponent : Option Int

namespace Literal

def exponentAfter (cs : List Char) : Option (Int × List Char) :=
  let read (negative : Bool) (rest : List Char) :=
    match takeDigits rest.length rest with
    | ([], _) => none
    | (run, rest) => some (if negative then -(number run : Int) else (number run : Int), rest)
  match cs with
  | '-' :: rest => read true rest
  | '+' :: rest => read false rest
  | rest => read false rest

/-- The longest prefix with the form of a literal, and the rest. A letter for an
exponent that no digit follows is left in the rest. -/
def scan (cs : List Char) : Literal × List Char :=
  let (whole, rest) := takeDigits cs.length cs
  let (fraction, rest) :=
    match rest with
    | '.' :: after =>
      let (run, rest) := takeDigits after.length after
      (some run, rest)
    | rest => (none, rest)
  match rest with
  | e :: after =>
    if e = 'e' ∨ e = 'E' then
      match exponentAfter after with
      | some (n, rest) => (⟨whole, fraction, some n⟩, rest)
      | none => (⟨whole, fraction, none⟩, rest)
    else (⟨whole, fraction, none⟩, rest)
  | [] => (⟨whole, fraction, none⟩, [])

/-- At least one digit stands before or after the point. -/
def hasDigits (l : Literal) : Bool :=
  !l.whole.isEmpty || !(l.fraction.getD []).isEmpty

def decimal (l : Literal) : Decimal :=
  let after := l.fraction.getD []
  ⟨number (l.whole ++ after), l.exponent.getD 0 - after.length⟩

def value (l : Literal) : Float := ofDecimal l.decimal

end Literal

def wordValue? (cs : List Char) : Option Float :=
  let word := String.ofList (cs.map Char.toLower)
  if word = "inf" ∨ word = "infinity" then some infinity
  else if word = "nan" then some (0.0 / 0.0)
  else none

/-- A real argument: an optional sign and a literal or one of the words for infinity
and not-a-number. -/
def ofText? (text : String) : Option Float :=
  let unsigned (cs : List Char) : Option Float :=
    match wordValue? cs with
    | some x => some x
    | none =>
      let (l, rest) := Literal.scan cs
      if l.hasDigits ∧ rest = [] then some l.value else none
  match text.toList with
  | '-' :: rest => (unsigned rest).map (-·)
  | '+' :: rest => unsigned rest
  | cs => unsigned cs

end ObsCatalog.Real
