import ObsCatalog.Json.Reader

/-! Numbers in JSON.

A number without fraction and exponent is an integer when 64 bits hold it. Any
other number is a real: its first digits, as many as 64 bits hold, are scaled by a
power of ten in double precision. Minus zero is a real.
-/

set_option autoImplicit false

namespace ObsCatalog.Json

open Text

inductive Number where
  | integer (n : Int)
  | real (x : Float)

/-- Numbers of 64 bits without sign are below it. -/
def wordLimit : Nat := Nat.pow 2 64

/-- The number formed by a prefix of the digits, the longest that stays below the
limit, and the digits that were not used. -/
def accumulate (start : Nat) : List Char → Nat × List Char
  | [] => (start, [])
  | d :: rest =>
    let next := 10 * start + (d.toNat - 48)
    if next < wordLimit then accumulate next rest else (start, d :: rest)

def powerOfTen (n : Nat) : Float := Float.ofScientific 1 false n

/-- A number scaled by a power of ten; none when it becomes infinite. -/
def scaled (x : Float) (exponent : Int) : Option Float :=
  if exponent.natAbs ≤ 308 then
    if 0 ≤ exponent then
      let y := x * powerOfTen exponent.natAbs
      if y.isInf then none else some y
    else some (x / powerOfTen exponent.natAbs)
  else if x == 0.0 then some x
  else if 0 ≤ exponent then none
  else scaled (x / powerOfTen 308) (exponent + 308)
termination_by exponent.natAbs

namespace Reader

def digitRun : Reader (List Char) := fun c =>
  let isDigit : Symbol → Bool
    | .char c => c.isDigit
    | .stray _ => false
  let run := c.rest.takeWhile isDigit
  let rest := c.rest.drop run.length
  .ok (run.filterMap Symbol.char?, ⟨rest, !rest.isEmpty⟩)

/-- A real from its sign, the number its first digits form and an exponent. -/
def real (negative : Bool) (significand : Nat) (exponent : Int) : Reader Number :=
  match scaled (Float.ofNat significand) exponent with
  | some x => pure (.real (if negative then -x else x))
  | none => fail (.malformed .numberTooLarge)

/-- Digits of an exponent past this number count as too many. -/
def exponentLimit : Nat := Nat.pow 2 31

/-- The exponent whose letter comes next; `start` is the power of ten so far. -/
def exponentPart (negative : Bool) (significand : Nat) (start : Int) : Reader Number := do
  advance
  let sign ← peek
  let down := sign = some (.char '-')
  if sign = some (.char '+') ∨ sign = some (.char '-') then advance
  match ← peek with
  | none => fail (.ended .value)
  | some _ =>
    let run ← digitRun
    if run.isEmpty then failHere (.malformed .badNumber)
    else
      let n := number run
      -- With so large an exponent the digits only matter in being zero or not.
      if exponentLimit ≤ n then
        if significand ≠ 0 ∧ !down then fail (.malformed .numberTooLarge)
        else pure (.real (if negative then -0.0 else 0.0))
      else real negative significand (if down then start - n else start + n)

def startsExponent (s : Option Symbol) : Bool :=
  s = some (.char 'e') || s = some (.char 'E')

def fractionPart (negative : Bool) (significand : Nat) (start : Int) : Reader Number := do
  advance
  let run ← digitRun
  if run.isEmpty then
    match ← peek with
    | none => fail (.ended .value)
    | some _ => fail (.malformed .badNumber)
  else
    let (significand, unused) := accumulate significand run
    let exponent := start - (run.length - unused.length : Nat)
    let next ← peek
    if startsExponent next then exponentPart negative significand exponent
    else real negative significand exponent

/-- What follows the whole digits: their number, and how many of them were left out. -/
def afterWhole (negative : Bool) (significand unused : Nat) : Reader Number := do
  let next ← peek
  if next = some (.char '.') then fractionPart negative significand unused
  else if startsExponent next then exponentPart negative significand unused
  else if unused ≠ 0 then real negative significand unused
  else if negative then
    -- Minus zero is no integer, and below -2^63 no word holds the number.
    if significand = 0 ∨ Nat.pow 2 63 < significand then
      pure (.real (-(Float.ofNat significand)))
    else pure (.integer (-(significand : Int)))
  else pure (.integer significand)

def unsigned (negative : Bool) : Reader Number := do
  match ← peek with
  | none => fail (.ended .value)
  | some (.char '0') =>
    advance
    match ← peek with
    | some (.char d) =>
      if d.isDigit then fail (.malformed .badNumber) else afterWhole negative 0 0
    | _ => afterWhole negative 0 0
  | some _ =>
    let run ← digitRun
    if run.isEmpty then failHere (.malformed .badNumber)
    else
      let (significand, unused) := accumulate 0 run
      afterWhole negative significand unused.length

def startsNumber : Symbol → Bool
  | .char c => c = '-' || c.isDigit
  | .stray _ => false

def anyNumber : Reader Number := do
  if (← peek) = some (.char '-') then
    advance
    unsigned true
  else unsigned false

/-! Numbers that are only skipped. Their digits are checked, not counted. -/

def skipExponent : Reader Unit := do
  advance
  let sign ← peek
  if sign = some (.char '+') ∨ sign = some (.char '-') then advance
  let run ← digitRun
  if run.isEmpty then
    match ← peek with
    | none => fail (.malformed .badNumber)
    | some _ => failHere (.malformed .badNumber)

def skipFraction : Reader Unit := do
  advance
  let run ← digitRun
  if run.isEmpty then fail (.malformed .badNumber)
  if startsExponent (← peek) then skipExponent

def skipNumber : Reader Unit := do
  if (← peek) = some (.char '-') then advance
  match ← peek with
  | none => fail (.malformed .badNumber)
  | some (.char '0') =>
    advance
    match ← peek with
    | some (.char d) => if d.isDigit then fail (.malformed .badNumber)
    | _ => pure ()
  | some _ =>
    let run ← digitRun
    if run.isEmpty then failHere (.malformed .badNumber)
  let next ← peek
  if next = some (.char '.') then skipFraction
  else if startsExponent next then skipExponent

end Reader

end ObsCatalog.Json
