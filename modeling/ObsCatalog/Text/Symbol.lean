/-! Text as it is stored in bytes.

Bytes are read as UTF-8 into symbols: a symbol is a character, or a stretch of
bytes that belong to none. A stretch is as long as the bytes could still have begun
a character. Every text is a sequence of symbols without such stretches.
-/

set_option autoImplicit false

namespace ObsCatalog.Text

inductive Symbol where
  | char (c : Char)
  | stray (bytes : List UInt8)
  deriving DecidableEq, Repr

def symbols (s : String) : List Symbol := s.toList.map .char

namespace Symbol

/-- The character that stands for a symbol in a text; a replacement character for
stray bytes. -/
def shown : Symbol → Char
  | .char c => c
  | .stray _ => '\uFFFD'

def char? : Symbol → Option Char
  | .char c => some c
  | .stray _ => none

def bytes : Symbol → List UInt8
  | .char c => String.utf8EncodeChar c
  | .stray bytes => bytes

end Symbol

def lossy (ss : List Symbol) : String := String.ofList (ss.map Symbol.shown)

def exactly? (ss : List Symbol) : Option String := (ss.mapM Symbol.char?).map String.ofList

theorem mapM_char? (cs : List Char) : (cs.map Symbol.char).mapM Symbol.char? = some cs := by
  induction cs with
  | nil => rfl
  | cons c rest ih => simp [List.mapM_cons, Symbol.char?, ih]

@[simp] theorem exactly?_symbols (s : String) : exactly? (symbols s) = some s := by
  rw [exactly?, symbols, mapM_char?]; simp

/-- What the first byte of a character of several bytes asks for: how many bytes
follow and the bounds of the first of them. -/
structure Continuation where
  count : Nat
  low : Nat
  high : Nat

def continuation? (first : UInt8) : Option Continuation :=
  let b := first.toNat
  if 0xC2 ≤ b ∧ b ≤ 0xDF then some ⟨1, 0x80, 0xBF⟩
  else if b = 0xE0 then some ⟨2, 0xA0, 0xBF⟩
  else if b = 0xED then some ⟨2, 0x80, 0x9F⟩
  else if 0xE1 ≤ b ∧ b ≤ 0xEF then some ⟨2, 0x80, 0xBF⟩
  else if b = 0xF0 then some ⟨3, 0x90, 0xBF⟩
  else if 0xF1 ≤ b ∧ b ≤ 0xF3 then some ⟨3, 0x80, 0xBF⟩
  else if b = 0xF4 then some ⟨3, 0x80, 0x8F⟩
  else none

def continuing (count low high : Nat) : List UInt8 → List UInt8
  | [] => []
  | b :: rest =>
    match count with
    | 0 => []
    | count + 1 =>
      if low ≤ b.toNat ∧ b.toNat ≤ high then b :: continuing count 0x80 0xBF rest else []

def scalar (first : UInt8) (rest : List UInt8) : Char :=
  let lead := first.toNat % Nat.pow 2 (6 - rest.length)
  Char.ofNat (rest.foldl (fun n b => 64 * n + b.toNat % 64) lead)

def decode : List UInt8 → List Symbol
  | [] => []
  | b :: rest =>
    if b.toNat < 0x80 then .char (Char.ofNat b.toNat) :: decode rest
    else
      match continuation? b with
      | none => .stray [b] :: decode rest
      | some c =>
        let more := continuing c.count c.low c.high rest
        let symbol := if more.length = c.count then .char (scalar b more) else .stray (b :: more)
        symbol :: decode (rest.drop more.length)
termination_by bytes => bytes.length
decreasing_by all_goals simp; try omega

end ObsCatalog.Text
