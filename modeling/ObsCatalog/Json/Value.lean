import ObsCatalog.Real.Decimal

/-! JSON values and their written forms.

A value is written on one line or, in the pretty form, with two spaces for each
level of nesting. Members keep their order. A real is written with the fewest digits
that read back and always shows that it is a real; infinities and not-a-number,
which JSON lacks, are written as null.
-/

set_option autoImplicit false

namespace ObsCatalog

inductive Json where
  | null
  | bool (b : Bool)
  | integer (n : Int)
  | real (x : Float)
  | text (s : String)
  | array (items : List Json)
  | object (members : List (String × Json))

namespace Json

open Text

/-- Leading digits from 10^-5 to below 10^16 are written in positional form. -/
def realFormat : Real.RealFormat where
  isPositional e := -5 ≤ e ∧ e < 16
  pointZero := true
  mantissaPointZero := false
  exponentDigits := 1

def realText (x : Float) : List Char :=
  if x.isFinite then
    let sign := if Real.isNegative x then ['-'] else []
    if Real.magnitude x = 0 then sign ++ ['0', '.', '0']
    else sign ++ realFormat.write (Real.shortest .even x)
  else ['n', 'u', 'l', 'l']

def hexDigit (n : Nat) : Char := if n < 10 then Char.ofNat (48 + n) else Char.ofNat (87 + n)

/-- A character of a string: quotes, backslashes and control characters are escaped. -/
def escapeChar (c : Char) : List Char :=
  if c = '"' then ['\\', '"']
  else if c = '\\' then ['\\', '\\']
  else if c = '\x08' then ['\\', 'b']
  else if c = '\x0c' then ['\\', 'f']
  else if c = '\n' then ['\\', 'n']
  else if c = '\r' then ['\\', 'r']
  else if c = '\t' then ['\\', 't']
  else if c.toNat < 32 then
    ['\\', 'u', '0', '0', hexDigit (c.toNat / 16), hexDigit (c.toNat % 16)]
  else [c]

def stringText (s : String) : List Char := '"' :: s.toList.flatMap escapeChar ++ ['"']

mutual

def compactChars : Json → List Char
  | .null => ['n', 'u', 'l', 'l']
  | .bool true => ['t', 'r', 'u', 'e']
  | .bool false => ['f', 'a', 'l', 's', 'e']
  | .integer n => integerChars n
  | .real x => realText x
  | .text s => stringText s
  | .array items => '[' :: compactItems items ++ [']']
  | .object members => '{' :: compactMembers members ++ ['}']

def compactItems : List Json → List Char
  | [] => []
  | [item] => compactChars item
  | item :: rest => compactChars item ++ ',' :: compactItems rest

def compactMembers : List (String × Json) → List Char
  | [] => []
  | [(name, value)] => stringText name ++ ':' :: compactChars value
  | (name, value) :: rest =>
    stringText name ++ ':' :: compactChars value ++ ',' :: compactMembers rest

end

def lineBreak (level : Nat) : List Char := '\n' :: List.replicate (2 * level) ' '

mutual

def prettyChars (level : Nat) : Json → List Char
  | .array [] => ['[', ']']
  | .array items => '[' :: prettyItems (level + 1) items ++ lineBreak level ++ [']']
  | .object [] => ['{', '}']
  | .object members => '{' :: prettyMembers (level + 1) members ++ lineBreak level ++ ['}']
  | .null => ['n', 'u', 'l', 'l']
  | .bool true => ['t', 'r', 'u', 'e']
  | .bool false => ['f', 'a', 'l', 's', 'e']
  | .integer n => integerChars n
  | .real x => realText x
  | .text s => stringText s

def prettyItems (level : Nat) : List Json → List Char
  | [] => []
  | [item] => lineBreak level ++ prettyChars level item
  | item :: rest => lineBreak level ++ prettyChars level item ++ ',' :: prettyItems level rest

def prettyMembers (level : Nat) : List (String × Json) → List Char
  | [] => []
  | [(name, value)] =>
    lineBreak level ++ stringText name ++ ':' :: ' ' :: prettyChars level value
  | (name, value) :: rest =>
    lineBreak level ++ stringText name ++ ':' :: ' ' :: prettyChars level value ++
      ',' :: prettyMembers level rest

end

def compact (j : Json) : String := String.ofList j.compactChars

def pretty (j : Json) : String := String.ofList (j.prettyChars 0)

end Json

end ObsCatalog
