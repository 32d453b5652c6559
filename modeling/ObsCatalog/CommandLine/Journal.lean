import ObsCatalog.Catalog.File

/-! The log.

A line of the log has a level and a message, and is shown if its level is at least as
urgent as the level that is set. What happens to a catalog is told in lines of the log.
-/

set_option autoImplicit false

namespace ObsCatalog

namespace LogLevel

/-- The name of a level, filled to the width of the longest. -/
def tag : LogLevel → String
  | .error => "ERROR"
  | .warn => "WARN "
  | .info => "INFO "
  | .debug => "DEBUG"
  | .trace => "TRACE"

def colour : LogLevel → String
  | .error => "1;31"
  | .warn => "1;33"
  | .info => "1;32"
  | .debug => "1;36"
  | .trace => "1;35"

end LogLevel

namespace CommandLine

structure Line where
  level : LogLevel
  message : String
  deriving DecidableEq, Repr

namespace Line

def render (l : Line) (clock : String) : String :=
  "\x1b[" ++ l.level.colour ++ "m" ++ clock ++ " " ++ l.level.tag ++ " " ++ l.message ++
    "\x1b[0m\n"

def settingsMissing (path : String) : Line :=
  ⟨.warn, "Config file not found at '" ++ path ++ "', creating default config."⟩

def opening (d : Deployment) (path : String) : Line :=
  ⟨.info, "Opening " ++ d.name ++ " database at: " ++ Text.quoted path⟩

def ready (h : Handle) : Line :=
  ⟨.info, h.deployment.name ++ " database ready at " ++ Text.quoted h.path⟩

def noSource (id : Int64) : Line :=
  ⟨.warn, "No source with id " ++ Text.integerText id.toInt⟩

def noAuthenticator : Line := ⟨.warn, "No source with that authenticator"⟩

def noObservation (id : Int64) : Line :=
  ⟨.warn, "No observation with id " ++ Text.integerText id.toInt⟩

def insertedSource (s : Source) (id : Int64) : Line :=
  ⟨.debug, "Inserted source '" ++ s.name ++ "' with id " ++ Text.integerText id.toInt⟩

def insertedObservation (o : Observation) (id : Int64) : Line :=
  ⟨.debug, "Inserted observation " ++ Text.integerText id.toInt ++ " for source " ++
    Text.integerText o.sourceId.toInt⟩

def selecting (s : Sql.Select) (params : List Value) : Line :=
  ⟨.debug, s.statement ++ " with " ++ Text.integerText params.length ++ " bound value(s)"⟩

def counted (s : Statistics) : Line := ⟨.info, s.summary⟩

def version : String := "v" ++ Text.integerText Schema.version

end Line

/-- What is told of an attempt to open the database of a deployment. The path is told
once its directory is there. -/
def openingLines (d : Deployment) :
    Except OpenFault (Handle × Schema.Opening) → List Line
  | .ok (h, .created) => [
      .opening d h.path,
      ⟨.info, "Initializing " ++ d.name ++ " database schema " ++ Line.version⟩,
      ⟨.info, d.name ++ " database schema created successfully"⟩]
  | .ok (h, .current) => [
      .opening d h.path,
      ⟨.debug, d.name ++ " database schema is up to date (" ++ Line.version ++ ")"⟩]
  | .error e =>
    (e.path?.map (Line.opening d)).toList ++
      [⟨.error, "Cannot connect to the " ++ d.name ++ " database: " ++ e.message⟩]

/-- What is told of an operation that failed. Operations on a poisoned handle are not
told of, nor are rows that could not be read. -/
def failureLines (d : Deployment) : CatalogFault → List Line
  | .lock _ => []
  | .rowMapping .. => []
  | .query fault => [⟨.debug, d.name ++ " query failed: " ++ fault.message⟩]
  | fault => [⟨.debug, d.name ++ " operation failed: " ++ fault.message⟩]

end CommandLine

end ObsCatalog
