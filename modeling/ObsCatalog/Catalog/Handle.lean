import ObsCatalog.Catalog.Schema

/-! Handles.

A handle is what operations on an open database go through; all copies of it share one
state. It remembers the message of the last operation if that failed. A task that
breaks off while it holds the handle poisons it, and every later operation fails.
-/

set_option autoImplicit false

namespace ObsCatalog

structure Handle where
  deployment : Deployment
  /-- The path of the file, or the name that stands for memory. -/
  path : String
  connection : Sql.Connection
  lastError : String
  isPoisoned : Bool

/-- An operation yields a result or a failure, and a handle in either case. -/
abbrev Action (α : Type) := Handle → Except CatalogFault α × Handle

namespace Handle

def memoryPath : String := ":memory:"

def isInMemory (h : Handle) : Bool := h.path = memoryPath

/-- No file is behind the handle. Paths are names of files here: to the engine one that begins
with `file:` is a URI, which may ask for a private database as well, and is left out. -/
def isPrivatePath (path : String) : Bool := path = memoryPath || path = ""

def lastInsertId (h : Handle) : Int64 := h.connection.lastInsertId

def poisoned : CatalogFault := .lock "poisoned lock: another task failed inside"

/-- Run a task on the connection. What comes of it is remembered, and a task that
fails changes nothing else. -/
def execute {α : Type} (task : Sql.Connection → Except CatalogFault (α × Sql.Connection)) :
    Action α := fun h =>
  if h.isPoisoned then (.error poisoned, h)
  else
    match task h.connection with
    | .ok (a, connection) => (.ok a, { h with connection, lastError := "" })
    | .error fault => (.error fault, { h with lastError := fault.bareMessage })

def run {α : Type} (statement : Sql.Connection.Statement α) : Action α :=
  execute fun c => (statement c).mapError .query

def breakOff : Handle → Handle := fun h => { h with isPoisoned := true }

def inMemory (d : Deployment) (now : Calendar.Instant) : Except CatalogFault Handle :=
  match Schema.prepare d now (Sql.Connection.new .empty) with
  | (.ok _, connection) => .ok ⟨d, memoryPath, connection, "", false⟩
  | (.error fault, _) => .error fault

end Handle

end ObsCatalog
