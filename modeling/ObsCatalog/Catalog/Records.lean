import ObsCatalog.Catalog.Filter
import ObsCatalog.Catalog.Handle
import ObsCatalog.Catalog.Statistics

/-! Operations on a catalog.

Records are inserted, looked up and listed. Rows are selected first and read as records
afterwards, so a row that is not the row of a record leaves no failure behind in the
handle.
-/

set_option autoImplicit false

namespace ObsCatalog.Handle

open Sql (Cell Connection Draws Engine Select)

def select (engine : Engine) (t : Table) (s : Select) (params : List Value) :
    Action (List Row) :=
  run fun c => do
    let (selected, c) ← Connection.select engine s (params.map Cell.ofValue) c
    pure (selected.rows.map fun cells => ⟨t, selected.columns, cells.map Cell.value⟩, c)

def listing (t : Table) (filter : Option Filter) : Select :=
  ⟨t.name, filter.map (·.clause), none, none⟩

def lookingUp (t : Table) : Select := ⟨t.name, some "id = ?1", none, some 1⟩

def findingSource : Select := ⟨Table.source.name, some "authenticator = ?1", some "id", some 1⟩

def filterParams (filter : Option Filter) : List Value := (filter.map (·.params)).getD []

def enumerate (t : Table) (filter : Option Filter) (engine : Engine := .standard) :
    Action (List Row) :=
  select engine t (listing t filter) (filterParams filter)

def lookup (t : Table) (id : Int64) : Action (Option Row) := fun h =>
  match select .standard t (lookingUp t) [.integer id] h with
  | (.ok rows, h) => (.ok rows.head?, h)
  | (.error fault, h) => (.error fault, h)

def reading {α β : Type} (action : Action α) (read : α → Except CatalogFault β) : Action β :=
  fun h =>
    match action h with
    | (.ok a, h) => (read a, h)
    | (.error fault, h) => (.error fault, h)

def sourceColumns : List String := ["name", "authenticator", "create_time"]

def sourceCells (s : Source) : List Cell :=
  [.text s.name, .text s.authenticator, .text (Calendar.Stamp.write s.createTime)]

def insertSource (s : Source) (draws : Draws := .inOrder) : Action Int64 :=
  run (Connection.insert Table.source.name sourceColumns (sourceCells s) draws)

def getSource (id : Int64) : Action (Option Source) :=
  reading (lookup .source id) fun row => row.mapM Source.ofRow

def listSources (filter : Option Filter) (engine : Engine := .standard) : Action (List Source) :=
  reading (enumerate .source filter engine) fun rows => rows.mapM Source.ofRow

def findSource (authenticator : String) : Action (Option Source) :=
  reading (select .standard .source findingSource [.text authenticator]) fun rows =>
    rows.head?.mapM Source.ofRow

def observationColumns : List String := ["source_id", "julian_date", "polarization", "length_days"]

def observationCells (o : Observation) : List Cell :=
  [.integer o.sourceId, Cell.ofValue (.real o.julianDate), .text o.polarization,
    Cell.ofValue (.real o.lengthDays)]

/-- Insert an observation and give its id. An assigned id is that of the observation
and has to be positive; otherwise the database generates one. -/
def insertObservation (o : Observation) (policy : IdPolicy) (draws : Draws := .inOrder) :
    Action Int64 :=
  match policy with
  | .assigned =>
    execute fun c =>
      if o.id ≤ 0 then .error .missingId
      else
        match Connection.insert Table.observation.name ("id" :: observationColumns)
            (.integer o.id :: observationCells o) draws c with
        | .ok (_, c) => .ok (o.id, c)
        | .error fault => .error (.query fault)
  | .generated =>
    run (Connection.insert Table.observation.name observationColumns (observationCells o) draws)

def getObservation (id : Int64) : Action (Option Observation) :=
  reading (lookup .observation id) fun row => row.mapM Observation.ofRow

def listObservations (filter : Option Filter) (engine : Engine := .standard) :
    Action (List Observation) :=
  reading (enumerate .observation filter engine) fun rows => rows.mapM Observation.ofRow

def statistics (fileBytes : Nat) : Action Statistics := fun h =>
  run (fun c => do
    let (sources, c) ← Connection.count Table.source.name c
    let (observations, c) ← Connection.count Table.observation.name c
    pure (⟨h.deployment, sources, observations, fileBytes⟩, c)) h

end ObsCatalog.Handle
