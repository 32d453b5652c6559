import ObsCatalog.Sql.Database
import ObsCatalog.Storage.Disk

/-! Images of databases.

A database is kept in a file as a list of words, one in each line. Numbers are written
in decimal and texts as the digits of their bytes, so that no word has a blank in it.
Lists begin with their length.
-/

set_option autoImplicit false

namespace ObsCatalog.Image

open Text
open Sql

def byteWord (bytes : List UInt8) : String :=
  String.ofList ('x' :: bytes.flatMap fun b =>
    [Nat.digitChar (b.toNat / 16), Nat.digitChar (b.toNat % 16)])

def textWord (s : String) : String := byteWord s.toUTF8.toList

def flagWord (b : Bool) : String := if b then "yes" else "no"

def listWords {α : Type} (words : α → List String) (items : List α) : List String :=
  integerText items.length :: items.flatMap words

def optionWords {α : Type} (words : α → List String) : Option α → List String
  | none => ["none"]
  | some a => "some" :: words a

def idWords (id : Int64) : List String := [integerText id.toInt]

def affinityWord : Affinity → String
  | .none => "none"
  | .integer => "integer"
  | .real => "real"
  | .text => "text"

def cellWords : Cell → List String
  | .null => ["null"]
  | .integer n => "integer" :: idWords n
  | .real x => ["real", integerText x.toBits.toNat]
  | .text s => ["text", textWord s]
  | .mangled bytes => ["mangled", byteWord bytes]
  | .blob bytes => ["blob", byteWord bytes]

def columnWords (c : Column) : List String :=
  [textWord c.name, affinityWord c.affinity, flagWord c.required] ++
    optionWords (fun index => [textWord index]) c.index ++ cellWords c.fill

def referenceWords (r : Reference) : List String := [textWord r.column, textWord r.table]

def rowWords (r : StoredRow) : List String := idWords r.id ++ listWords cellWords r.cells

def tableWords (t : Table) : List String :=
  [textWord t.name, textWord t.key] ++ listWords columnWords t.columns ++
    optionWords idWords t.sequence ++ optionWords idWords t.onlyId ++
    listWords referenceWords t.references ++ listWords rowWords t.rows

def write (db : Database) : String :=
  "\n".intercalate (databaseHeading :: listWords tableWords db.tables) ++ "\n"

/-- Reads a value from the first words and leaves the others. -/
abbrev WordReader := StateT (List String) Option

def word : WordReader String := fun words =>
  match words with
  | [] => none
  | first :: rest => some (first, rest)

def meant {α : Type} (read : String → Option α) : WordReader α := do
  match read (← word) with
  | some a => pure a
  | none => failure

def hexValue? (c : Char) : Option Nat :=
  if c.isDigit then some (c.toNat - '0'.toNat)
  else if 'a' ≤ c ∧ c ≤ 'f' then some (c.toNat - 'a'.toNat + 10)
  else none

def bytesOfHex? : List Char → Option (List UInt8)
  | [] => some []
  | high :: low :: rest => do
    let h ← hexValue? high
    let l ← hexValue? low
    let bytes ← bytesOfHex? rest
    pure (UInt8.ofNat (16 * h + l) :: bytes)
  | [_] => none

def bytes : WordReader (List UInt8) := meant fun w =>
  match w.toList with
  | 'x' :: cs => bytesOfHex? cs
  | _ => none

def text : WordReader String := do
  match exactly? (decode (← bytes)) with
  | some s => pure s
  | none => failure

def count : WordReader Nat := meant fun w =>
  if w.toList ≠ [] ∧ w.toList.all Char.isDigit then some (number w.toList) else none

def id : WordReader Int64 := meant fun w =>
  match w.toList with
  | '-' :: cs => some (Int64.ofInt (-(number cs : Int)))
  | cs => some (Int64.ofInt (number cs))

def flag : WordReader Bool := meant fun w =>
  match w with
  | "yes" => some true
  | "no" => some false
  | _ => none

def affinity : WordReader Affinity := meant fun w =>
  [Affinity.none, .integer, .real, .text].find? fun a => affinityWord a = w

def times {α : Type} (r : WordReader α) : Nat → WordReader (List α)
  | 0 => pure []
  | n + 1 => do
    let a ← r
    let more ← times r n
    pure (a :: more)

def list {α : Type} (r : WordReader α) : WordReader (List α) := do
  let n ← count
  times r n

def option {α : Type} (r : WordReader α) : WordReader (Option α) := do
  match ← word with
  | "some" => some <$> r
  | "none" => pure none
  | _ => failure

def cell : WordReader Cell := do
  match ← word with
  | "null" => pure .null
  | "integer" => .integer <$> id
  | "real" => (fun n => Cell.real (Float.ofBits (UInt64.ofNat n))) <$> count
  | "text" => .text <$> text
  | "mangled" => .mangled <$> bytes
  | "blob" => .blob <$> bytes
  | _ => failure

def column : WordReader Column := do
  pure ⟨← text, ← affinity, ← flag, ← option text, ← cell⟩

def reference : WordReader Reference := do
  pure ⟨← text, ← text⟩

def row : WordReader StoredRow := do
  pure ⟨← id, ← list cell⟩

def table : WordReader Table := do
  pure ⟨← text, ← text, ← list column, ← option id, ← option id, ← list reference, ← list row⟩

def database : WordReader Database := do
  if (← word) = databaseHeading then Database.mk <$> list table else failure

def read (image : String) : Option Database :=
  match database ((image.splitOn "\n").filter (· ≠ "")) with
  | some (db, []) => some db
  | _ => none

end ObsCatalog.Image
