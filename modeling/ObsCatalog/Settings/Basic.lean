import ObsCatalog.Catalog.Deployment
import ObsCatalog.Storage.Path
import ObsCatalog.Text.Blank

/-! Settings.

They say where the files of the deployments lie, whether missing ones are created,
and how much is logged. Settings are valid when each deployment has a file name of
its own that is not blank and has no separator in it.
-/

set_option autoImplicit false

namespace ObsCatalog

inductive LogLevel where
  | error
  | warn
  | info
  | debug
  | trace
  deriving DecidableEq, Repr

namespace LogLevel

def all : List LogLevel := [.error, .warn, .info, .debug, .trace]

def name : LogLevel → String
  | .error => "error"
  | .warn => "warn"
  | .info => "info"
  | .debug => "debug"
  | .trace => "trace"

def ofName? (name : String) : Option LogLevel := all.find? (·.name = name)

@[simp] theorem ofName?_name (l : LogLevel) : ofName? l.name = some l := by
  cases l <;> decide

/-- Greater ranks are less urgent. -/
def rank : LogLevel → Nat
  | .error => 1
  | .warn => 2
  | .info => 3
  | .debug => 4
  | .trace => 5

/-- A line of one level is shown when the other level is set. -/
def isShownAt (line setting : LogLevel) : Bool := line.rank ≤ setting.rank

end LogLevel

/-- Where the database files lie and how they are opened. -/
structure Locations where
  /-- The directory that holds the files; if absent, the user's data directory decides. -/
  directory : Option String
  librarianFile : String
  monitorControlFile : String
  createIfMissing : Bool
  deriving DecidableEq, Repr

structure Settings where
  locations : Locations
  logLevel : LogLevel
  deriving DecidableEq, Repr

inductive SettingsFault where
  | noDirectory
  | blankName (deployment : Deployment)
  | separatorInName (deployment : Deployment) (name : String)
  | sharedName (name : String)
  | invalid (reason : SettingsFault)
  | unopened (path reason : String)
  | unreadable (path reason : String)
  | unwritten (path reason : String)
  deriving DecidableEq, Repr

namespace SettingsFault

def message : SettingsFault → String
  | .noDirectory => "Could not determine data directory"
  | .blankName deployment =>
    "Database file name for " ++ deployment.name ++ " must not be empty"
  | .separatorInName deployment name =>
    "Database file name for " ++ deployment.name ++ " must not contain a path separator: " ++ name
  | .sharedName name =>
    "Librarian and M&C databases must use different files, both are '" ++ name ++ "'"
  | .invalid _ => "Configuration validation failed"
  | .unopened path _ => "Failed to open config file: " ++ path
  | .unreadable path _ => "Failed to parse config file: " ++ path
  | .unwritten path _ => "Failed to write config to file: " ++ path

def causes : SettingsFault → List String
  | .noDirectory => []
  | .blankName _ => []
  | .separatorInName _ _ => []
  | .sharedName _ => []
  | .invalid reason => [reason.message]
  | .unopened _ reason => [reason]
  | .unreadable _ reason => [reason]
  | .unwritten _ reason => [reason]

end SettingsFault

namespace Locations

def standard : Locations := ⟨none, "librarian.db", "mc.db", true⟩

instance : Inhabited Locations := ⟨standard⟩

def fileName (l : Locations) : Deployment → String
  | .librarian => l.librarianFile
  | .monitorControl => l.monitorControlFile

def directoryName : String := "hera-db"

/-- The directory of the files. `dataHome` is the user's data directory, if there is
one. -/
def resolveDirectory (l : Locations) (dataHome : Option String) : Except SettingsFault String :=
  match l.directory, dataHome with
  | some directory, _ => .ok directory
  | none, some home => .ok (Path.join home directoryName)
  | none, none => .error .noDirectory

def filePath (l : Locations) (dataHome : Option String) (d : Deployment) :
    Except SettingsFault String := do
  let directory ← l.resolveDirectory dataHome
  pure (Path.join directory (l.fileName d))

def isSeparator (c : Char) : Bool := c == '/' || c == '\\'

def checkName (d : Deployment) (name : String) : Except SettingsFault Unit :=
  if Text.isAllBlank name then .error (.blankName d)
  else if name.toList.any isSeparator then .error (.separatorInName d name)
  else .ok ()

def validate (l : Locations) : Except SettingsFault Unit := do
  checkName .librarian l.librarianFile
  checkName .monitorControl l.monitorControlFile
  if l.librarianFile = l.monitorControlFile then throw (.sharedName l.monitorControlFile)

end Locations

namespace Settings

def standard : Settings := ⟨.standard, .info⟩

instance : Inhabited Settings := ⟨standard⟩

def validate (s : Settings) : Except SettingsFault Unit := s.locations.validate

end Settings

end ObsCatalog
