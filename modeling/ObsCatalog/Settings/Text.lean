import ObsCatalog.Json.Typed
import ObsCatalog.Settings.Basic

/-! The text form of settings.

Settings are written as a JSON object. A field that is not given keeps its standard
value; fields with other names are skipped.
-/

set_option autoImplicit false

namespace ObsCatalog

open Json Reader

namespace LogLevel

def json (l : LogLevel) : Json := .text l.name

def readName : Reader LogLevel := do
  let name ← text "variant identifier"
  match ofName? name with
  | some level => pure level
  | none => mismatch (.unknownVariant name (all.map LogLevel.name))

/-- A level, as a name or as an object whose only member is null. -/
def reader : Reader LogLevel := do
  match ← valueStart with
  | .char '"' => readName
  | .char '{' => do
    advance
    let level ← readName
    colon
    null "unit"
    match ← blanks with
    | some (.char '}') => do
      advance
      pure level
    | some _ => fail (.malformed .noValue)
    | none => fail (.ended .object)
  | _ => fail (.malformed .noValue)

end LogLevel

namespace Locations

def json (l : Locations) : Json :=
  .object [
    ("data_dir", match l.directory with | some d => .text d | none => .null),
    ("librarian_file", .text l.librarianFile),
    ("mc_file", .text l.monitorControlFile),
    ("create_if_missing", .bool l.createIfMissing)]

structure Draft where
  directory : Option (Option String)
  librarianFile : Option String
  monitorControlFile : Option String
  createIfMissing : Option Bool

def Draft.completed (d : Draft) : Locations :=
  ⟨d.directory.getD standard.directory, d.librarianFile.getD standard.librarianFile,
    d.monitorControlFile.getD standard.monitorControlFile,
    d.createIfMissing.getD standard.createIfMissing⟩

def readDirectory : Reader (Option String) := optional (text "path string")

def readMember (name : String) (d : Draft) : Reader Draft :=
  match name with
  | "data_dir" => do
    let directory ← once name d.directory readDirectory
    pure { d with directory }
  | "librarian_file" => do
    let librarianFile ← once name d.librarianFile (text "a string")
    pure { d with librarianFile }
  | "mc_file" => do
    let monitorControlFile ← once name d.monitorControlFile (text "a string")
    pure { d with monitorControlFile }
  | "create_if_missing" => do
    let createIfMissing ← once name d.createIfMissing bool
    pure { d with createIfMissing }
  | _ => do
    skipMember
    pure d

def readObject : Reader Locations := do
  let d ← members readMember ⟨none, none, none, none⟩
  pure d.completed

def readList : Reader Locations := do
  let directory ← element 0 readDirectory
  let librarianFile ← element 1 (text "a string")
  let monitorControlFile ← element 2 (text "a string")
  let createIfMissing ← element 3 bool
  pure (Draft.completed ⟨directory, librarianFile, monitorControlFile, createIfMissing⟩)

def reader : Reader Locations := record "struct DatabaseConfig" readObject readList

end Locations

namespace Settings

def json (s : Settings) : Json :=
  .object [("database", s.locations.json), ("log_level", s.logLevel.json)]

structure Draft where
  locations : Option Locations
  logLevel : Option LogLevel

def Draft.completed (d : Draft) : Settings :=
  ⟨d.locations.getD standard.locations, d.logLevel.getD standard.logLevel⟩

def readMember (name : String) (d : Draft) : Reader Draft :=
  match name with
  | "database" => do
    let locations ← once name d.locations Locations.reader
    pure { d with locations }
  | "log_level" => do
    let logLevel ← once name d.logLevel LogLevel.reader
    pure { d with logLevel }
  | _ => do
    skipMember
    pure d

def readObject : Reader Settings := do
  let d ← members readMember ⟨none, none⟩
  pure d.completed

def readList : Reader Settings := do
  let locations ← element 0 Locations.reader
  let logLevel ← element 1 LogLevel.reader
  pure (Draft.completed ⟨locations, logLevel⟩)

def reader : Reader Settings := record "struct Config" readObject readList

def read (content : List Text.Symbol) : Except Json.Fault Settings :=
  document reader content

def write (s : Settings) : String := s.json.pretty

end Settings

end ObsCatalog
