/-! Patterns.

A pattern is read into pieces first. In the one kind of patterns a percent sign fits any
characters, a low line fits one and the case of ASCII letters is ignored; in the other
kind a star fits any characters, a question mark one, and a set one of its members.
-/

set_option autoImplicit false

namespace ObsCatalog.Sql

inductive Piece where
  | any
  | one
  | exact (c : Char)
  /-- A character in one of some ranges, or in none of them. -/
  | set (inverted : Bool) (ranges : List (Char × Char))
  /-- The pattern breaks off, and nothing fits it. -/
  | never

namespace Piece

def fitsOne (ignoreCase : Bool) (c : Char) : Piece → Bool
  | .one => true
  | .exact d => d = c || (ignoreCase && d.toLower = c.toLower)
  | .set inverted ranges => (ranges.any fun (low, high) => low ≤ c && c ≤ high) != inverted
  | _ => false

def suffixes : List Char → List (List Char)
  | [] => [[]]
  | c :: rest => (c :: rest) :: suffixes rest

def fits (ignoreCase : Bool) : List Piece → List Char → Bool
  | [], cs => cs.isEmpty
  | .any :: pieces, cs => (suffixes cs).any fun rest => fits ignoreCase pieces rest
  | piece :: pieces, cs =>
    match cs with
    | [] => false
    | c :: rest => piece.fitsOne ignoreCase c && fits ignoreCase pieces rest

/-- The pieces of a pattern with percent signs and low lines. The character after an escape
character stands for itself. -/
def likePieces (escape : Option Char) : List Char → List Piece
  | [] => []
  | [c] =>
    [if escape = some c then .never else if c = '%' then .any else if c = '_' then .one
      else .exact c]
  | c :: d :: rest =>
    if escape = some c then .exact d :: likePieces escape rest
    else
      (if c = '%' then .any else if c = '_' then .one else .exact c) :: likePieces escape (d :: rest)

/-- The ranges of a set up to its closing bracket, and what follows it. A minus sign makes a
range if a character stands before it that is not the end of a range. -/
def ranges (before : Option Char) : List Char → Option (List (Char × Char) × List Char)
  | [] => none
  | ']' :: rest => some ([], rest)
  | '-' :: d :: rest =>
    if d = ']' then some ([('-', '-')], rest)
    else
      match before with
      | some low => (ranges none rest).map fun (found, rest) => ((low, d) :: found, rest)
      | none => (ranges (some '-') (d :: rest)).map fun (found, rest) => (('-', '-') :: found, rest)
  | c :: rest => (ranges (some c) rest).map fun (found, rest) => ((c, c) :: found, rest)

def setOf (cs : List Char) : Option (Piece × List Char) :=
  let (inverted, cs) :=
    match cs with
    | '^' :: rest => (true, rest)
    | cs => (false, cs)
  -- A bracket that comes first does not close the set.
  let found : Option (List (Char × Char) × List Char) :=
    match cs with
    | ']' :: rest => (ranges none rest).map fun (found, rest) => ((']', ']') :: found, rest)
    | cs => ranges none cs
  found.map fun (ranges, rest) => (.set inverted ranges, rest)

/-- The pieces of a pattern with stars, question marks and sets. Each step consumes a
character, so their count bounds the steps. -/
def globPieces : Nat → List Char → List Piece
  | 0, _ => []
  | _ + 1, [] => []
  | steps + 1, c :: rest =>
    if c = '*' then .any :: globPieces steps rest
    else if c = '?' then .one :: globPieces steps rest
    else if c = '[' then
      match setOf rest with
      | some (piece, rest) => piece :: globPieces steps rest
      | none => [.never]
    else .exact c :: globPieces steps rest

end Piece

end ObsCatalog.Sql
