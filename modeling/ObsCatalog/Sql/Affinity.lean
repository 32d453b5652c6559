import ObsCatalog.Sql.Cell

/-! Affinities of columns.

An affinity is the kind of value that a column prefers. It changes what is stored and
what is compared, as far as nothing is lost by the change.
-/

set_option autoImplicit false

namespace ObsCatalog.Sql

inductive Affinity where
  | none
  | text
  | integer
  | real
  deriving DecidableEq, Repr

namespace Affinity

def isNumeric : Affinity → Bool
  | .none => false
  | .text => false
  | .integer => true
  | .real => true

/-- A whole real of less than 64 bits as an integer; other cells as they are. -/
def integral : Cell → Cell
  | .real x =>
    match Real.whole? x with
    | some n =>
      if Int64.minValue.toInt < n ∧ n < Int64.maxValue.toInt then .integer (Int64.ofInt n)
      else .real x
    | Option.none => .real x
  | c => c

def widened : Cell → Cell
  | .integer n => .real (Real.ofInt n.toInt)
  | c => c

def stored : Affinity → Cell → Cell
  | .none, c => c
  | .text, c => c.texted
  | .integer, c => integral c.numeric
  | .real, c => widened (integral c.numeric)

inductive Conversion where
  | none
  | numeric
  | text
  deriving DecidableEq, Repr

/-- The conversion for two operands. An operand that is no column has no affinity at
all. -/
def conversion : Option Affinity → Option Affinity → Conversion
  | some a, some b => if a.isNumeric || b.isNumeric then .numeric else .none
  | some a, Option.none | Option.none, some a =>
    if a.isNumeric then .numeric else if a = .text then .text else .none
  | Option.none, Option.none => .none

/-- Numeric text next to a number is compared as a number under the one conversion; a
number next to text is compared as text under the other. -/
def Conversion.apply (conversion : Conversion) (a b : Cell) : Cell × Cell :=
  match conversion with
  | .none => (a, b)
  | .numeric => (a.numeric, b.numeric)
  | .text => if a.isText || b.isText then (a.texted, b.texted) else (a, b)

def Conversion.cell : Conversion → Cell → Cell
  | .none, c => c
  | .numeric, c => c.numeric
  | .text, c => c.texted

end Affinity

end ObsCatalog.Sql
