import ObsCatalog.CommandLine.Run
import ObsCatalog.Storage.Image
import Std.Time.Zoned

/-! The program.

What a command works on is read from the file system, the command is run on that, and
what it has changed is written back.
-/

set_option autoImplicit false

namespace ObsCatalog.Program

open CommandLine

def pathOf (place : Place) : String := "/" ++ "/".intercalate place

/-- The places that are come through on the way along a path. -/
def placesOn (home : Place) (path : String) : List Place :=
  let step (here : Place) (name : String) : Place :=
    if name = "" ∨ name = "." then here
    else if name = ".." then here.dropLast
    else here ++ [name]
  (Path.names path).foldl
    (fun places name => places ++ [step (places.getLast?.getD []) name])
    [if Path.isAbsolute path then [] else home]

def entryOf (bytes : ByteArray) : Entry Sql.Database :=
  match (String.fromUTF8? bytes).bind Image.read with
  | some db => .database db
  | none => .text (Text.decode bytes.toList)

def bytesOf : Entry Sql.Database → ByteArray
  | .directory => .empty
  | .text content => ⟨(content.flatMap Text.Symbol.bytes).toArray⟩
  | .database db => (Image.write db).toUTF8

def load (place : Place) : IO (Option (Entry Sql.Database)) := do
  let path := (← IO.currentDir) / pathOf place
  if ← path.isDir then pure (some .directory)
  else if ← path.pathExists then pure (some (entryOf (← IO.FS.readBinFile path)))
  else pure none

def explore (disk : CatalogDisk) (path : String) : IO CatalogDisk :=
  (placesOn disk.home path).foldlM
    (fun disk place => do
      match ← load place with
      | some entry => pure (disk.put place entry)
      | none => pure disk) disk

def store (before : CatalogDisk) (place : Place) (entry : Entry Sql.Database) : IO Unit := do
  let path := pathOf place
  match entry, before.get? place with
  | .directory, some _ => pure ()
  | .directory, none => IO.FS.createDirAll path
  | entry, some old =>
    if bytesOf entry != bytesOf old then IO.FS.writeBinFile path (bytesOf entry)
  | entry, none => IO.FS.writeBinFile path (bytesOf entry)

def twoDigits (n : Int) : String := String.ofList (Text.padded 2 n.toNat)

def clockText (t : Std.Time.PlainTime) : String :=
  twoDigits t.hour.val ++ ":" ++ twoDigits t.minute.val ++ ":" ++ twoDigits t.second.val ++ "." ++
    String.ofList (Text.padded 3 (t.nanosecond.val.toNat / 1000000))

def now : IO Calendar.Instant := do
  let nanos := (← Std.Time.Timestamp.now).toNanosecondsSinceUnixEpoch.toInt
  match Calendar.Instant.ofParts? (nanos / 1000000000) (nanos % 1000000000).toNat with
  | some t => pure t
  | none => throw (IO.userError "the clock is out of range")

def draws : IO Sql.Draws := do
  let drawn ← (List.range 100).mapM fun _ => IO.rand 0 Int64.maxValue.toInt.toNat
  pure fun i => Int64.ofNat (drawn.getD i 0)

def surroundings : IO Surroundings := do
  let dataHome := dataHome? (← IO.getEnv "XDG_DATA_HOME") (← IO.getEnv "HOME")
  pure ⟨← IO.getEnv "HERA_DB_DIR", dataHome, ⟨← now, ← draws⟩⟩

def snapshot (e : Surroundings) (arguments : List String) : IO CatalogDisk := do
  let home := (Path.names (← IO.currentDir).toString).filter (· ≠ "")
  let here ← explore ⟨home, []⟩ (pathOf home)
  match settingsPath? e arguments with
  | none => pure here
  | some path => do
    let disk ← explore here path
    match databasePath? e arguments disk with
    | none => pure disk
    | some path => explore disk path

def runOn (arguments : List String) : IO UInt32 := do
  let e ← surroundings
  let before ← snapshot e arguments
  let (outcome, after) := run e arguments before
  for (place, entry) in after.entries.reverse do
    store before place entry
  (← IO.getStderr).putStr (outcome.errorText (clockText (← Std.Time.PlainTime.now)))
  (← IO.getStdout).putStr outcome.output
  pure (UInt32.ofNat outcome.code)

end ObsCatalog.Program

def main (arguments : List String) : IO UInt32 := ObsCatalog.Program.runOn arguments
