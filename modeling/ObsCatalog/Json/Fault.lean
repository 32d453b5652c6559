import ObsCatalog.Json.Value
import ObsCatalog.Text.Quoted
import ObsCatalog.Text.Symbol

/-! Failures of reading JSON.

A text can end too early, break the grammar, or hold a value of the wrong kind. A
failure knows how many symbols were left and how many bytes past them had been
looked at, from which its line and column follow.
-/

set_option autoImplicit false

namespace ObsCatalog.Json

open Text

inductive Part where
  | list
  | object
  | string
  | value
  deriving DecidableEq, Repr

inductive Slip where
  | noColon
  | noListEnd
  | noObjectEnd
  | badWord
  | noValue
  | badEscape
  | badNumber
  | numberTooLarge
  | strayBytes
  | controlCharacter
  | keyNotString
  | loneSurrogate
  | brokenPair
  | trailingComma
  | trailingCharacters
  deriving DecidableEq, Repr

inductive Found where
  | null
  | bool (b : Bool)
  | integer (n : Int)
  | real (x : Float)
  | text (s : String)
  | list
  | object

inductive Mismatch where
  | wrongKind (found : Found) (expected : String)
  | wrongInteger (n : Int) (expected : String)
  | duplicateField (name : String)
  | missingField (name : String)
  | wrongLength (length : Nat) (expected : String)
  | unknownVariant (name : String) (known : List String)
  | unreadable (reason : String)

inductive Kind where
  | ended (part : Part)
  | malformed (slip : Slip)
  | mismatched (mismatch : Mismatch)

structure Fault where
  kind : Kind
  /-- Symbols that had not been consumed. -/
  remaining : Nat
  /-- Bytes of those symbols that had been looked at. -/
  ahead : Nat

def Part.message : Part → String
  | .list => "EOF while parsing a list"
  | .object => "EOF while parsing an object"
  | .string => "EOF while parsing a string"
  | .value => "EOF while parsing a value"

def Slip.message : Slip → String
  | .noColon => "expected `:`"
  | .noListEnd => "expected `,` or `]`"
  | .noObjectEnd => "expected `,` or `\x7d`"
  | .badWord => "expected ident"
  | .noValue => "expected value"
  | .badEscape => "invalid escape"
  | .badNumber => "invalid number"
  | .numberTooLarge => "number out of range"
  | .strayBytes => "invalid unicode code point"
  | .controlCharacter => "control character (\\u0000-\\u001F) found while parsing a string"
  | .keyNotString => "key must be a string"
  | .loneSurrogate => "lone leading surrogate in hex escape"
  | .brokenPair => "unexpected end of hex escape"
  | .trailingComma => "trailing comma"
  | .trailingCharacters => "trailing characters"

def Found.message : Found → String
  | .null => "null"
  | .bool true => "boolean `true`"
  | .bool false => "boolean `false`"
  | .integer n => "integer `" ++ integerText n ++ "`"
  | .real x => "floating point `" ++ String.ofList (realText x) ++ "`"
  | .text s => "string " ++ quoted s
  | .list => "sequence"
  | .object => "map"

def alternatives : List String → String
  | [] => ""
  | [a] => "`" ++ a ++ "`"
  | a :: rest => "`" ++ a ++ "`, " ++ alternatives rest

def Mismatch.message : Mismatch → String
  | .wrongKind found expected => "invalid type: " ++ found.message ++ ", expected " ++ expected
  | .wrongInteger n expected =>
    "invalid value: integer `" ++ integerText n ++ "`, expected " ++ expected
  | .duplicateField name => "duplicate field `" ++ name ++ "`"
  | .missingField name => "missing field `" ++ name ++ "`"
  | .wrongLength length expected =>
    "invalid length " ++ integerText length ++ ", expected " ++ expected
  | .unknownVariant name known =>
    "unknown variant `" ++ name ++ "`, expected one of " ++ alternatives known
  | .unreadable reason => reason

def Kind.message : Kind → String
  | .ended part => part.message
  | .malformed slip => slip.message
  | .mismatched mismatch => mismatch.message

/-- The line and the column reached after some bytes; both count from the last line
break, lines from one. -/
def lineColumn (bytes : List UInt8) : Nat × Nat :=
  bytes.foldl (fun (p : Nat × Nat) b => if b = 10 then (p.1 + 1, 0) else (p.1, p.2 + 1)) (1, 0)

/-- The line and column of the last byte that was looked at. -/
def Fault.position (fault : Fault) (input : List Symbol) : Nat × Nat :=
  let consumed := input.length - fault.remaining
  let before := (input.take consumed).flatMap Symbol.bytes
  let after := ((input.drop consumed).take fault.ahead).flatMap Symbol.bytes
  lineColumn (before ++ after.take fault.ahead)

def Fault.message (fault : Fault) (input : List Symbol) : String :=
  let (line, column) := fault.position input
  fault.kind.message ++ " at line " ++ integerText line ++ " column " ++ integerText column

end ObsCatalog.Json
