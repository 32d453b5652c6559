import ObsCatalog.Json.Fault

/-! Reading JSON from the left.

A reader consumes symbols and yields a value or the first failure. Looking at a
symbol without consuming it is remembered, because failures report it. Blanks are
the four of the grammar.
-/

set_option autoImplicit false

namespace ObsCatalog.Json

open Text

structure Cursor where
  rest : List Symbol
  /-- The first symbol of the rest has been looked at. -/
  peeked : Bool
  deriving DecidableEq, Repr

abbrev Reader := StateT Cursor (Except Fault)

namespace Reader

def fail {α : Type} (kind : Kind) : Reader α := fun c =>
  .error ⟨kind, c.rest.length, if c.peeked then 1 else 0⟩

/-- Fail at the next symbol, which counts as looked at. -/
def failHere {α : Type} (kind : Kind) : Reader α := fun c =>
  .error ⟨kind, c.rest.length, 1⟩

def peek : Reader (Option Symbol) := fun c =>
  .ok (c.rest.head?, ⟨c.rest, !c.rest.isEmpty⟩)

def advance : Reader Unit := fun c => .ok ((), ⟨c.rest.tail, false⟩)

def isBlank : Symbol → Bool
  | .char c => c = ' ' || c = '\n' || c = '\t' || c = '\r'
  | .stray _ => false

def blanks : Reader (Option Symbol) := fun c =>
  let rest := c.rest.dropWhile isBlank
  .ok (rest.head?, ⟨rest, !rest.isEmpty⟩)

def word : List Char → Reader Unit
  | [] => pure ()
  | c :: more => do
    match ← peek with
    | none => fail (.ended .value)
    | some s => if s = .char c then advance *> word more else failHere (.malformed .badWord)

inductive Mode where
  | plain
  | escape
  /-- Hexadecimal digits of an escape, after the first half of a pair if there is one. -/
  | hex (high : Option Nat) (seen : List Symbol)
  | pairSlash (high : Nat)
  | pairLetter (high : Nat)
  deriving DecidableEq, Repr

def hexValue? : Symbol → Option Nat
  | .char c =>
    if c.isDigit then some (c.toNat - 48)
    else if 'a' ≤ c ∧ c ≤ 'f' then some (c.toNat - 87)
    else if 'A' ≤ c ∧ c ≤ 'F' then some (c.toNat - 55)
    else none
  | .stray _ => none

def hexNumber? (digits : List Symbol) : Option Nat :=
  (digits.mapM hexValue?).map (·.foldl (fun n d => 16 * n + d) 0)

def byteLength (ss : List Symbol) : Nat := (ss.flatMap Symbol.bytes).length

def escaped? : Char → Option Char
  | '"' => some '"'
  | '\\' => some '\\'
  | '/' => some '/'
  | 'b' => some '\x08'
  | 'f' => some '\x0c'
  | 'n' => some '\n'
  | 'r' => some '\r'
  | 't' => some '\t'
  | _ => none

/-- What follows four hexadecimal digits: a character, another half of a pair to be
read, or a failure. -/
def afterHex (high : Option Nat) (n : Nat) : Except Slip (Mode × Option Symbol) :=
  match high with
  | none =>
    if 0xDC00 ≤ n ∧ n ≤ 0xDFFF then .error .loneSurrogate
    else if 0xD800 ≤ n ∧ n ≤ 0xDBFF then .ok (.pairSlash n, none)
    else .ok (.plain, some (.char (Char.ofNat n)))
  | some h =>
    if 0xDC00 ≤ n ∧ n ≤ 0xDFFF then
      .ok (.plain, some (.char (Char.ofNat (0x10000 + (h - 0xD800) * 0x400 + (n - 0xDC00)))))
    else .error .loneSurrogate

/-- The symbols up to the closing quote, with escapes resolved, and the rest. When the
value is only skipped, halves of pairs are not matched. -/
def body (skipped : Bool) : Mode → List Symbol → List Symbol →
    Except Fault (List Symbol × List Symbol)
  | _, _, [] => .error ⟨.ended .string, 0, 0⟩
  | mode, content, s :: rest =>
    let broken {α : Type} (slip : Slip) : Except Fault α :=
      .error ⟨.malformed slip, rest.length + 1, 1⟩
    match mode with
    | .plain =>
      if s = .char '"' then .ok (content.reverse, rest)
      else if s = .char '\\' then body skipped .escape content rest
      else match s with
        | .char c =>
          if c.toNat < 32 then broken .controlCharacter
          else body skipped .plain (s :: content) rest
        | .stray _ => body skipped .plain (s :: content) rest
    | .escape =>
      match s with
      | .char 'u' => body skipped (.hex none []) content rest
      | .char c =>
        match escaped? c with
        | some d => body skipped .plain (.char d :: content) rest
        | none => broken .badEscape
      | .stray _ => broken .badEscape
    | .hex high seen =>
      let digits := seen ++ [s]
      if byteLength digits < 4 then body skipped (.hex high digits) content rest
      else match hexNumber? digits with
        | none => .error ⟨.malformed .badEscape, rest.length + 1, 4 - byteLength seen⟩
        | some n =>
          if skipped then body skipped .plain content rest
          else match afterHex high n with
            | .error slip => .error ⟨.malformed slip, rest.length, 0⟩
            | .ok (mode, none) => body skipped mode content rest
            | .ok (mode, some c) => body skipped mode (c :: content) rest
    | .pairSlash high =>
      if s = .char '\\' then body skipped (.pairLetter high) content rest else broken .brokenPair
    | .pairLetter high =>
      if s = .char 'u' then body skipped (.hex (some high) []) content rest
      else broken .brokenPair

def string : Reader String := fun c =>
  match body false .plain [] c.rest with
  | .error e => .error e
  | .ok (content, rest) =>
    match exactly? content with
    | some s => .ok (s, ⟨rest, false⟩)
    | none => .error ⟨.malformed .strayBytes, rest.length, 0⟩

def skipString : Reader Unit := fun c =>
  match body true .plain [] c.rest with
  | .error e => .error e
  | .ok (_, rest) => .ok ((), ⟨rest, false⟩)

end Reader

end ObsCatalog.Json
