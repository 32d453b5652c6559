import ObsCatalog.CommandLine.Arguments
import ObsCatalog.CommandLine.Shell
import ObsCatalog.Settings.Basic

/-! Commands.

A command either works on the catalog of a deployment or needs none. Options for all
commands stand before the name of the command, its own options and its operand after
it.
-/

set_option autoImplicit false

namespace ObsCatalog.CommandLine

inductive Request where
  | init
  | addSource (name authenticator : String)
  /-- Without an id the deployment decides who chooses it. -/
  | addObservation (sourceId : Int64) (julianDate : Float) (polarization : String)
      (lengthDays : Float) (id : Option Int64)
  | addFileObservation (sourceId : Int64) (file : String) (lengthDays : Float)
  | getSource (id : Int64)
  | findSource (authenticator : String)
  | listSources (name : Option String)
  | getObservation (id : Int64)
  | listObservations (sourceId : Option Int64) (polarization : Option String)
  | stats

inductive Command where
  | request (r : Request)
  | obsidInfo (obsid : Int64)
  | completions (shell : Shell)

namespace Command

structure Form where
  name : String
  options : List String
  operand : Option String

def forms : List Form := [
  ⟨"init", [], none⟩,
  ⟨"add-source", ["name", "authenticator"], none⟩,
  ⟨"add-observation", ["source-id", "jd", "pol", "length", "id"], none⟩,
  ⟨"add-file-observation", ["source-id", "file", "length"], none⟩,
  ⟨"obsid-info", [], some "OBSID"⟩,
  ⟨"get-source", [], some "ID"⟩,
  ⟨"find-source", [], some "AUTHENTICATOR"⟩,
  ⟨"list-sources", ["name"], none⟩,
  ⟨"get-observation", [], some "ID"⟩,
  ⟨"list-observations", ["source-id", "pol"], none⟩,
  ⟨"stats", [], none⟩,
  ⟨"completions", [], some "SHELL"⟩]

def names : List String := forms.map (·.name)

def helpFlag : Declared := ⟨"help", some 'h', false⟩

def Form.declared (f : Form) : List Declared :=
  helpFlag :: f.options.map (⟨·, none, true⟩)

def ofArguments (name : String) (a : Arguments) : Except Stop Command := do
  match name with
  | "init" => pure (.request .init)
  | "add-source" =>
    pure (.request (.addSource (← a.required "name" some) (← a.required "authenticator" some)))
  | "add-observation" =>
    let sourceId ← a.required "source-id" readInteger?
    let julianDate ← a.required "jd" Real.ofText?
    let polarization ← a.required "pol" some
    let lengthDays ← a.required "length" Real.ofText?
    let id ← a.optional "id" readInteger?
    pure (.request (.addObservation sourceId julianDate polarization lengthDays id))
  | "add-file-observation" =>
    let sourceId ← a.required "source-id" readInteger?
    let file ← a.required "file" some
    let lengthDays ← a.required "length" Real.ofText?
    pure (.request (.addFileObservation sourceId file lengthDays))
  | "obsid-info" => pure (.obsidInfo (← a.operand "OBSID" readInteger?))
  | "get-source" => pure (.request (.getSource (← a.operand "ID" readInteger?)))
  | "find-source" => pure (.request (.findSource (← a.operand "AUTHENTICATOR" some)))
  | "list-sources" => pure (.request (.listSources (← a.optional "name" some)))
  | "get-observation" => pure (.request (.getObservation (← a.operand "ID" readInteger?)))
  | "list-observations" =>
    let sourceId ← a.optional "source-id" readInteger?
    let polarization ← a.optional "pol" some
    pure (.request (.listObservations sourceId polarization))
  | "stats" => pure (.request .stats)
  | "completions" => pure (.completions (← a.operand "SHELL" Shell.ofName?))
  | name => throw (.misuse (.unknown name))

def read (name : String) (given : List String) : Except Stop Command :=
  match forms.find? (·.name = name) with
  | none => .error (if name = "help" then .help else .misuse (.unknown name))
  | some form => do
    let (items, _) := Item.scan form.declared false given
    let a ← items.foldlM Arguments.add .empty
    if form.operand.isNone then a.noOperand
    ofArguments name a

end Command

structure Options where
  deployment : Deployment
  settingsPath : String
  dataDirectory : Option String
  logLevel : Option LogLevel
  deriving DecidableEq, Repr

namespace Options

def declared : List Declared := [
  ⟨"db", some 'd', true⟩,
  ⟨"config-path", some 'c', true⟩,
  ⟨"data-dir", none, true⟩,
  ⟨"log-level", some 'l', true⟩,
  Command.helpFlag,
  ⟨"version", some 'V', false⟩]

structure Draft where
  deployment : Option Deployment
  settingsPath : Option String
  dataDirectory : Option String
  logLevel : Option LogLevel

def Draft.empty : Draft := ⟨none, none, none, none⟩

def once {α : Type} (name : String) (given : Option α) (read : String → Option α)
    (value : String) : Except Stop (Option α) :=
  match given with
  | some _ => .error (.misuse (.repeated name))
  | none => some <$> Arguments.meant name read value

def Draft.add (d : Draft) : Item → Except Stop Draft
  | .option name value =>
    match name with
    | "db" => do
      let deployment ← once name d.deployment Deployment.ofName? value
      pure { d with deployment }
    | "config-path" => do
      let settingsPath ← once name d.settingsPath readPath? value
      pure { d with settingsPath }
    | "data-dir" => do
      let dataDirectory ← once name d.dataDirectory readPath? value
      pure { d with dataDirectory }
    | _ => do
      let logLevel ← once name d.logLevel LogLevel.ofName? value
      pure { d with logLevel }
  | .flag name => .error (if name = "version" then .version else .help)
  | .operand text => .error (.misuse (.unknown text))
  | .fault f => .error (.misuse f)

def standardSettingsPath : String := "conf.json"

def Draft.completed (d : Draft) (environment : Option String) : Except Stop Options := do
  let dataDirectory ←
    match d.dataDirectory, environment with
    | none, some value => some <$> Arguments.meant "data-dir" readPath? value
    | given, _ => pure given
  pure ⟨d.deployment.getD .librarian, d.settingsPath.getD standardSettingsPath, dataDirectory,
    d.logLevel⟩

def applied (o : Options) (s : Settings) : Settings where
  locations := { s.locations with directory := o.dataDirectory.or s.locations.directory }
  logLevel := o.logLevel.getD s.logLevel

end Options

structure Invocation where
  options : Options
  command : Command

/-- Read a command line. The environment may name the directory of the database files. -/
def Invocation.read (environment : Option String) (arguments : List String) :
    Except Stop Invocation := do
  let (items, left) := Item.scan Options.declared true arguments
  let draft ← items.foldlM Options.Draft.add .empty
  match left with
  | [] => throw (.misuse .noCommand)
  | name :: given =>
    let command ← Command.read name given
    let options ← draft.completed environment
    pure ⟨options, command⟩

end ObsCatalog.CommandLine
