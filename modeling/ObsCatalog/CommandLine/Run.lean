import ObsCatalog.CommandLine.Command
import ObsCatalog.CommandLine.Step
import ObsCatalog.Settings.File

/-! Running commands.

A command line is read, the settings are loaded and checked, the database is opened,
and one request is made of it. Results are printed as JSON. A command that fails prints
nothing.
-/

set_option autoImplicit false

namespace ObsCatalog.CommandLine

/-- What differs each time that a command is run. -/
structure Moment where
  now : Calendar.Instant
  draws : Sql.Draws

instance : Coe Calendar.Instant Moment := ⟨fun now => ⟨now, .inOrder⟩⟩

/-- What a command finds around it besides the disk. -/
structure Surroundings where
  /-- The directory of the database files that the environment names. -/
  dataDirectory : Option String
  dataHome : Option String
  moment : Moment

namespace Surroundings

def now (e : Surroundings) : Calendar.Instant := e.moment.now

end Surroundings

/-- The user's data directory: the one that is set, if it is absolute, and else the
usual one below the home directory. -/
def dataHome? (set home : Option String) : Option String :=
  match set.filter Path.isAbsolute, home.filter (· ≠ "") with
  | some directory, _ => some directory
  | none, some home => some (Path.join home ".local/share")
  | none, none => none

def printed (j : Json) : String := j.pretty ++ "\n"

open Handle (enumerate filterParams findingSource listing lookingUp)

def addSource (h : Handle) (s : Source) (draws : Sql.Draws) : Step String := do
  let id ← Step.perform h [] (fun id => [.insertedSource s id]) (Handle.insertSource s draws)
  pure (printed { s with id }.json)

def addObservation (h : Handle) (o : Observation) (policy : IdPolicy) (draws : Sql.Draws) :
    Step String := do
  let id ← Step.perform h [] (fun id => [.insertedObservation o id])
    (Handle.insertObservation o policy draws)
  pure (printed { o with id }.json)

def printFound {α : Type} (json : α → Json) (missing : Line) : Option α → Step String
  | some a => pure (printed (json a))
  | none => do
    Step.tell missing
    pure ""

def getSource (h : Handle) (id : Int64) : Step String := do
  let found ← Step.perform h [.selecting (lookingUp .source) [.integer id]] (fun _ => [])
    (Handle.getSource id)
  printFound Source.json (.noSource id) found

def findSource (h : Handle) (authenticator : String) : Step String := do
  let found ← Step.perform h [.selecting findingSource [.text authenticator]] (fun _ => [])
    (Handle.findSource authenticator)
  printFound Source.json .noAuthenticator found

def getObservation (h : Handle) (id : Int64) : Step String := do
  let found ← Step.perform h [.selecting (lookingUp .observation) [.integer id]] (fun _ => [])
    (Handle.getObservation id)
  printFound Observation.json (.noObservation id) found

def listSources (h : Handle) (filter : Option Filter) : Step String := do
  let found ← Step.perform h [.selecting (listing .source filter) (filterParams filter)]
    (fun _ => []) (Handle.listSources filter)
  pure (printed (.array (found.map Source.json)))

def listObservations (h : Handle) (filter : Option Filter) : Step String := do
  let found ← Step.perform h [.selecting (listing .observation filter) (filterParams filter)]
    (fun _ => []) (Handle.listObservations filter)
  pure (printed (.array (found.map Observation.json)))

def sizeLines (h : Handle) (disk : CatalogDisk) : List Line :=
  if h.isInMemory then []
  else
    match h.fileBytes disk with
    | .ok _ => []
    | .error fault =>
      [⟨.debug, "Cannot read the size of " ++ h.path ++ ": " ++ fault.message⟩]

def statistics (h : Handle) : Step String := fun disk =>
  (do
    let found ← Step.perform h [] (fun s => sizeLines h disk ++ [.counted s])
      (h.statisticsOn disk)
    pure (printed found.json) : Step String) disk

/-- A filter for the equality of a column with a value, if there is a value. -/
def equality (column : String) : Option Value → Except CatalogFault (List Filter)
  | none => .ok []
  | some value => (Filter.eq column value).map ([·])

def equalities (given : List (String × Option Value)) : Except CatalogFault (Option Filter) := do
  let filters ← given.mapM fun (column, value) => equality column value
  Filter.all filters.flatten

def make (m : Moment) (h : Handle) : Request → Step String
  | .init => do
    Step.tell (.ready h)
    pure ""
  | .addSource name authenticator => addSource h (Source.new name authenticator m.now) m.draws
  | .addObservation sourceId julianDate polarization lengthDays id =>
    let o := Observation.new sourceId julianDate polarization lengthDays
    match id with
    | some id => addObservation h { o with id } .assigned m.draws
    | none => addObservation h o h.deployment.idPolicy m.draws
  | .addFileObservation sourceId file lengthDays => do
    let o ← Step.of (.fileName file) (Observation.ofFileName sourceId file lengthDays)
    addObservation h o h.deployment.idPolicy m.draws
  | .getSource id => getSource h id
  | .findSource authenticator => findSource h authenticator
  | .listSources name => do
    listSources h (← Step.of .catalog (equalities [("name", name.map .text)]))
  | .getObservation id => getObservation h id
  | .listObservations sourceId polarization => do
    listObservations h (← Step.of .catalog (equalities
      [("source_id", sourceId.map .integer), ("polarization", polarization.map .text)]))
  | .stats => statistics h

def loadSettings (path : String) : Step Settings := fun disk =>
  let lines := if disk.hasEntry path then [] else [.settingsMissing path]
  match Settings.loadOrCreate disk path with
  | .ok (settings, disk) => ⟨.ok settings, disk, lines⟩
  | .error fault => ⟨.error (.settings fault), disk, lines⟩

def settle (o : Options) (s : Settings) : Except SettingsFault Settings :=
  let s := o.applied s
  match s.validate with
  | .ok () => .ok s
  | .error reason => .error (.invalid reason)

def openCatalog (e : Surroundings) (d : Deployment) (l : Locations) : Step Handle := fun disk =>
  let (result, disk) := Handle.openFile d l e.dataHome e.now disk
  let lines := openingLines d result
  match result with
  | .ok (h, _) => ⟨.ok h, disk, lines⟩
  | .error fault => ⟨.error (.catalog (fault.fault d)), disk, lines⟩

/-- Until the settings are known, the log is that of the standard settings. -/
def fulfil (e : Surroundings) (o : Options) (r : Request) : Step String := do
  let loaded ← Step.shownAt Settings.standard.logLevel (loadSettings o.settingsPath)
  let settings ← Step.of .settings (settle o loaded)
  Step.shownAt settings.logLevel do
    let h ← openCatalog e o.deployment settings.locations
    make e.moment h r

def obsidInfo (obsid : Int64) : Except ObsidFault String := do
  let utc ← Obsid.toInstant obsid
  let date ← Obsid.dateText obsid
  pure (printed (.object [
    ("obsid", .integer obsid.toInt),
    ("date", .text date),
    ("utc", .text (Calendar.Stamp.write utc))]))

def execute (e : Surroundings) (i : Invocation) : Step String :=
  match i.command with
  | .request r => fulfil e i.options r
  | .obsidInfo obsid => Step.of .obsid (obsidInfo obsid)
  | .completions shell => pure (shell.script Command.names)

/-- What a command leaves for its caller. -/
structure Outcome where
  code : Nat
  output : String
  lines : List Line
  /-- What is said about a failure, after the lines of the log. -/
  complaint : String

namespace Outcome

def success (output : String) (lines : List Line) : Outcome := ⟨0, output, lines, ""⟩

def failure (f : CommandFault) (lines : List Line) : Outcome := ⟨1, "", lines, f.report⟩

def misuse (f : UsageFault) : Outcome :=
  ⟨2, "", [], "error: " ++ f.message ++ "\n\nFor more information, try '--help'.\n"⟩

def errorText (o : Outcome) (clock : String) : String :=
  String.join (o.lines.map (·.render clock)) ++ o.complaint

end Outcome

def versionText : String := programName ++ " 0.1.0\n"

def helpText : String :=
  "Data access for the HERA Librarian and M&C databases\n\nUsage: " ++ programName ++
    " [OPTIONS] <COMMAND>\n\nCommands:\n" ++
    String.join (Command.names.map fun name => "  " ++ name ++ "\n") ++
    "\nOptions:\n" ++
    String.join (Options.declared.map fun option => "  --" ++ option.name ++ "\n")

def run (e : Surroundings) (arguments : List String) (disk : CatalogDisk) :
    Outcome × CatalogDisk :=
  match Invocation.read e.dataDirectory arguments with
  | .error .help => (.success helpText [], disk)
  | .error .version => (.success versionText [], disk)
  | .error (.misuse fault) => (.misuse fault, disk)
  | .ok invocation =>
    let execution := execute e invocation disk
    match execution.outcome with
    | .ok output => (.success output execution.lines, execution.disk)
    | .error fault => (.failure fault execution.lines, execution.disk)

/-- The path of the settings that a command line asks for, if it asks for any. -/
def settingsPath? (e : Surroundings) (arguments : List String) : Option String :=
  match Invocation.read e.dataDirectory arguments with
  | .ok ⟨o, .request _⟩ => some o.settingsPath
  | _ => none

/-- The path of the database that a command line asks for, as the settings tell it. -/
def databasePath? (e : Surroundings) (arguments : List String) (disk : CatalogDisk) :
    Option String :=
  match Invocation.read e.dataDirectory arguments with
  | .ok ⟨o, .request _⟩ =>
    match Settings.loadOrCreate disk o.settingsPath with
    | .ok (s, _) => ((o.applied s).locations.filePath e.dataHome o.deployment).toOption
    | .error _ => none
  | _ => none

end ObsCatalog.CommandLine
