import ObsCatalog.Proofs.Catalog.Ledger

/-! Operations on a ledger.

Each operation of a catalog gives what the ledger of its database says it should, and
leaves the handle with the database of the ledger that comes of it. Rows are read back as
the very records they were made from.
-/

set_option autoImplicit false

namespace ObsCatalog

open Sql (Cell Connection Engine Select)

def Source.row (s : Source) : Row :=
  ⟨.source, ["id", "name", "authenticator", "create_time"],
    [.integer s.id, .text s.name, .text s.authenticator,
      .text (Calendar.Stamp.write s.createTime)]⟩

def Observation.row (o : Observation) : Row :=
  ⟨.observation, ["id", "source_id", "julian_date", "polarization", "length_days"],
    [.integer o.id, .integer o.sourceId, .real o.julianDate, .text o.polarization,
      .real o.lengthDays]⟩

theorem Source.ofRow_row {s : Source} (whole : s.createTime.kept = s.createTime) :
    Source.ofRow s.row = .ok s := by
  have time : s.row.time "create_time" = .ok s.createTime := by
    have text : s.row.text "create_time" = .ok (Calendar.Stamp.write s.createTime) := rfl
    simp only [Row.time, text, bind, Except.bind, Calendar.Stamp.read_write, whole]
    rfl
  have id : s.row.integer "id" = .ok s.id := rfl
  have name : s.row.text "name" = .ok s.name := rfl
  have authenticator : s.row.text "authenticator" = .ok s.authenticator := rfl
  simp only [Source.ofRow, id, name, authenticator, time, bind, Except.bind]
  rfl

theorem Observation.ofRow_row (o : Observation) : Observation.ofRow o.row = .ok o := by
  rfl

theorem mapM_ofRow {α : Type} {row : α → Row} {ofRow : Row → Except CatalogFault α}
    {entries : List α} (reads : ∀ a ∈ entries, ofRow (row a) = .ok a) :
    (entries.map row).mapM ofRow = .ok entries := by
  induction entries with
  | nil => rfl
  | cons a rest ih =>
    have first := reads a List.mem_cons_self
    have others := ih fun b member => reads b (List.mem_cons_of_mem a member)
    simp only [List.map_cons, List.mapM_cons, first, others, bind, Except.bind]
    rfl

namespace Ledger

def rows (l : Ledger) : Table → List Row
  | .source => l.sources.entries.map Source.row
  | .observation => l.observations.entries.map Observation.row

def row? (l : Ledger) (id : Int64) : Table → Option Row
  | .source => (l.sources.get? id).map Source.row
  | .observation => (l.observations.get? id).map Observation.row

end Ledger

namespace Handle

structure Holds (h : Handle) (l : Ledger) : Prop where
  deployment : h.deployment = l.deployment
  database : h.connection.database = l.database
  enforced : h.connection.enforcesReferences = true
  writable : h.connection.isWritable = true

variable {h : Handle} {l : Ledger}

theorem execute_ok {α : Type} {task : Connection → Except CatalogFault (α × Connection)} {a : α}
    {c : Connection} (healthy : h.isPoisoned = false) (done : task h.connection = .ok (a, c)) :
    execute task h = (.ok a, { h with connection := c, lastError := "" }) := by
  simp [execute, healthy, done]

theorem execute_error {α : Type} {task : Connection → Except CatalogFault (α × Connection)}
    {fault : CatalogFault} (healthy : h.isPoisoned = false)
    (failed : task h.connection = .error fault) :
    execute task h = (.error fault, { h with lastError := fault.bareMessage }) := by
  simp [execute, healthy, failed]

theorem run_ok {α : Type} {statement : Connection.Statement α} {a : α} {c : Connection}
    (healthy : h.isPoisoned = false) (done : statement h.connection = .ok (a, c)) :
    run statement h = (.ok a, { h with connection := c, lastError := "" }) :=
  execute_ok healthy (by simp only [done, Except.mapError])

theorem run_error {α : Type} {statement : Connection.Statement α} {fault : Sql.Fault}
    (healthy : h.isPoisoned = false) (failed : statement h.connection = .error fault) :
    run statement h = (.error (.query fault), { h with lastError := fault.message }) :=
  execute_error healthy (by simp only [failed, Except.mapError])

theorem select_ok {engine : Engine} (t : Table) {s : Select} (params : List Value)
    {selected : Sql.Selected} (healthy : h.isPoisoned = false)
    (found : s.run h.connection.database (params.map Cell.ofValue) engine = .ok selected) :
    select engine t s params h =
      (.ok (selected.rows.map fun cells => ⟨t, selected.columns, cells.map Cell.value⟩),
        { h with lastError := "" }) := by
  refine run_ok healthy ?_
  simp only [Connection.select, found, bind, Except.bind]
  rfl

theorem select_error {engine : Engine} (t : Table) {s : Select} (params : List Value)
    {fault : Sql.Fault} (healthy : h.isPoisoned = false)
    (failed : s.run h.connection.database (params.map Cell.ofValue) engine = .error fault) :
    select engine t s params h =
      (.error (.query fault), { h with lastError := fault.message }) := by
  refine run_error healthy ?_
  simp only [Connection.select, failed, bind, Except.bind]

theorem count_ok {c : Connection} {name : String} {t : Sql.Table}
    (found : c.database.table name = .ok t) :
    Connection.count name c = .ok (t.rows.length, c) := by
  simp only [Connection.count, found, bind, Except.bind]
  rfl

def selectedRow (l : Ledger) (t : Table) (r : Sql.StoredRow) : Row :=
  ⟨t, (l.table t).columnNames, (Cell.integer r.id :: r.cells).map Cell.value⟩

-- Ids and cells come out of a table as the very values of the record.
theorem selectedRow_source (l : Ledger) (s : Source) :
    selectedRow l .source (Kept.row s) = s.row := rfl

theorem selectedRow_observation (l : Ledger) (o : Observation) :
    selectedRow l .observation (Kept.row o) = o.row := rfl

/-- The rows of a table of a ledger are those of its records. -/
theorem map_selectedRow (l : Ledger) (t : Table) :
    (l.table t).rows.map (selectedRow l t) = l.rows t := by
  cases t with
  | source =>
    show (l.sources.entries.map Kept.row).map (selectedRow l .source) = _
    simp only [List.map_map, Function.comp_def, selectedRow_source]
    rfl
  | observation =>
    show (l.observations.entries.map Kept.row).map (selectedRow l .observation) = _
    simp only [List.map_map, Function.comp_def, selectedRow_observation]
    rfl

theorem Holds.enumerate (holds : h.Holds l) (healthy : h.isPoisoned = false) (t : Table)
    (engine : Engine) :
    Handle.enumerate t none engine h = (.ok (l.rows t), { h with lastError := "" }) := by
  have found : h.connection.database.table (l.table t).name = .ok (l.table t) := by
    rw [holds.database]
    cases t <;> rfl
  have name : (l.table t).name = t.name := by cases t <;> rfl
  have selected := @Select.run_all _ _ engine found
  rw [name] at selected
  have done := select_ok t (filterParams none) healthy selected
  rw [List.map_map] at done
  exact done.trans (by rw [← map_selectedRow]; rfl)

theorem Holds.lookup (holds : h.Holds l) (healthy : h.isPoisoned = false) (t : Table)
    (id : Int64) :
    Handle.lookup t id h = (.ok (l.row? id t), { h with lastError := "" }) := by
  have found : h.connection.database.table (l.table t).name = .ok (l.table t) := by
    rw [holds.database]
    cases t <;> rfl
  have name : (l.table t).name = t.name := by cases t <;> rfl
  have key : (l.table t).key = "id" := by cases t <;> rfl
  have selected := @Select.run_id _ _ .standard found key id
  rw [name] at selected
  have row : ((((l.table t).rows.filter (·.id == id)).take 1).map (selectedRow l t)).head? =
      l.row? id t := by
    cases t with
    | source =>
      show (((l.sourceTable.rows.filter (·.id == id)).take 1).map (selectedRow l .source)).head? = _
      rw [Ledger.sourceTable, Shelf.rows_with_id]
      cases known : l.sources.get? id <;> simp [Ledger.row?, known, selectedRow_source]
    | observation =>
      show (((l.observationTable.rows.filter (·.id == id)).take 1).map
        (selectedRow l .observation)).head? = _
      rw [Ledger.observationTable, Shelf.rows_with_id]
      cases known : l.observations.get? id <;> simp [Ledger.row?, known, selectedRow_observation]
  have done := select_ok t [.integer id] healthy selected
  rw [List.map_map] at done
  unfold Handle.lookup
  rw [lookingUp, done, ← row]
  rfl

variable {α β : Type}

theorem reading_ok {action : Action α} {read : α → Except CatalogFault β} {a : α} {after : Handle}
    (done : action h = (.ok a, after)) : reading action read h = (read a, after) := by
  simp only [reading, done]

theorem Holds.getSource (holds : h.Holds l) (sound : l.Sound) (healthy : h.isPoisoned = false)
    (id : Int64) :
    Handle.getSource id h = (.ok (l.sources.get? id), { h with lastError := "" }) := by
  rw [Handle.getSource, reading_ok (holds.lookup healthy .source id)]
  cases known : l.sources.get? id with
  | none =>
    simp only [Ledger.row?, known, Option.map_none]
    rfl
  | some s =>
    have whole := sound.whole s (sound.sources.get?_eq_some_iff.1 known).1
    simp [Ledger.row?, known, Source.ofRow_row whole]

theorem Holds.getObservation (holds : h.Holds l) (healthy : h.isPoisoned = false) (id : Int64) :
    Handle.getObservation id h = (.ok (l.observations.get? id), { h with lastError := "" }) := by
  rw [Handle.getObservation, reading_ok (holds.lookup healthy .observation id)]
  cases known : l.observations.get? id with
  | none =>
    simp only [Ledger.row?, known, Option.map_none]
    rfl
  | some o => simp [Ledger.row?, known, Observation.ofRow_row]

theorem Holds.listSources (holds : h.Holds l) (sound : l.Sound) (healthy : h.isPoisoned = false)
    (engine : Engine) :
    Handle.listSources none engine h = (.ok l.sources.entries, { h with lastError := "" }) := by
  rw [Handle.listSources, reading_ok (holds.enumerate healthy .source engine)]
  have read : (l.rows .source).mapM Source.ofRow = .ok l.sources.entries :=
    mapM_ofRow fun s member => Source.ofRow_row (sound.whole s member)
  rw [read]

theorem Holds.listObservations (holds : h.Holds l) (healthy : h.isPoisoned = false)
    (engine : Engine) :
    Handle.listObservations none engine h =
      (.ok l.observations.entries, { h with lastError := "" }) := by
  rw [Handle.listObservations, reading_ok (holds.enumerate healthy .observation engine)]
  have read : (l.rows .observation).mapM Observation.ofRow = .ok l.observations.entries :=
    mapM_ofRow fun o _ => o.ofRow_row
  rw [read]

theorem Holds.statistics (holds : h.Holds l) (healthy : h.isPoisoned = false) (fileBytes : Nat) :
    Handle.statistics fileBytes h =
      (.ok ⟨l.deployment, l.sources.entries.length, l.observations.entries.length, fileBytes⟩,
        { h with lastError := "" }) := by
  have sources : Connection.count Table.source.name h.connection =
      .ok (l.sources.entries.length, h.connection) := by
    have counted := count_ok (holds.database ▸ l.table_source)
    rwa [Ledger.sourceTable, Shelf.table, List.length_map] at counted
  have observations : Connection.count Table.observation.name h.connection =
      .ok (l.observations.entries.length, h.connection) := by
    have counted := count_ok (holds.database ▸ l.table_observation)
    rwa [Ledger.observationTable, Shelf.table, List.length_map] at counted
  refine run_ok healthy ?_
  simp only [sources, observations, bind, Except.bind, holds.deployment]
  rfl

end Handle

namespace Ledger

def insertSource (l : Ledger) (s : Source) : Except CatalogFault (Int64 × Ledger) :=
  if l.sources.last = Int64.maxValue then .error (.query .full)
  else .ok (l.sources.last + 1, l.addSource s)

def observationId (l : Ledger) (o : Observation) (policy : IdPolicy)
    (draws : Sql.Draws := .inOrder) : Except CatalogFault Int64 :=
  match policy with
  | .assigned => if o.id ≤ 0 then .error .missingId else .ok o.id
  | .generated => (l.observationTable.nextId draws).mapError .query

def insertObservation (l : Ledger) (o : Observation) (policy : IdPolicy)
    (draws : Sql.Draws := .inOrder) : Except CatalogFault (Int64 × Ledger) :=
  match l.observationId o policy draws with
  | .error fault => .error fault
  | .ok id => (l.keep o id).mapError .query

def delete (l : Ledger) (t : Table) (id : Int64) : Except CatalogFault (Nat × Ledger) :=
  if (l.table t).hasRow id then
    if (l.remove id t).database.isReferred t.name id then .error (.query .reference)
    else .ok (1, l.remove id t)
  else .ok (0, l)

end Ledger

namespace Handle

variable {h : Handle} {l : Ledger}

def insertion (h : Handle) :
    Except CatalogFault (Int64 × Ledger) → Except CatalogFault Int64 × Handle
  | .ok (id, after) =>
    (.ok id, { h with
      connection := { h.connection with database := after.database, lastInsertId := id }
      lastError := "" })
  | .error fault => (.error fault, { h with lastError := fault.bareMessage })

theorem Holds.insert_ok (holds : h.Holds l) {table : String} {names : List String}
    {cells : List Cell} {draws : Sql.Draws} {id : Int64} {after : Ledger}
    (kept : l.database.insert true table names cells draws = .ok (id, after.database)) :
    Connection.insert table names cells draws h.connection =
      .ok (id, { h.connection with database := after.database, lastInsertId := id }) := by
  rw [← holds.database, ← holds.enforced] at kept
  simp only [Connection.insert, kept, bind, Except.bind, Connection.written, holds.writable]
  rfl

theorem Holds.insert_error (holds : h.Holds l) {table : String} {names : List String}
    {cells : List Cell} {draws : Sql.Draws} {fault : Sql.Fault}
    (refused : l.database.insert true table names cells draws = .error fault) :
    Connection.insert table names cells draws h.connection = .error fault := by
  rw [← holds.database, ← holds.enforced] at refused
  simp only [Connection.insert, refused, bind, Except.bind]

theorem Holds.insertSource (holds : h.Holds l) (sound : l.Sound) (healthy : h.isPoisoned = false)
    (s : Source) (draws : Sql.Draws := .inOrder) :
    Handle.insertSource s draws h = h.insertion (l.insertSource s) := by
  have outcome := sound.insert_source true s draws
  unfold Ledger.insertSource
  by_cases full : l.sources.last = Int64.maxValue
  · rw [if_pos full] at outcome ⊢
    exact run_error healthy (holds.insert_error outcome)
  · rw [if_neg full] at outcome ⊢
    exact run_ok healthy (holds.insert_ok outcome)

theorem Holds.insertObservation (holds : h.Holds l) (healthy : h.isPoisoned = false)
    (o : Observation) (policy : IdPolicy) (draws : Sql.Draws := .inOrder) :
    Handle.insertObservation o policy draws h =
      h.insertion (l.insertObservation o policy draws) := by
  -- An assigned id is checked before the statement runs; a generated one is drawn by it.
  cases policy with
  | assigned =>
    have outcome := l.insert_assigned o draws
    unfold Ledger.insertObservation Ledger.observationId Handle.insertObservation
    by_cases missing : o.id ≤ 0
    · simp only [if_pos missing]
      exact execute_error healthy rfl
    · simp only [if_neg missing]
      unfold Ledger.keep at outcome ⊢
      cases refused : l.refusal o o.id with
      | some fault =>
        simp only [refused, Except.map] at outcome
        exact execute_error healthy (by simp only [holds.insert_error outcome])
      | none =>
        simp only [refused, Except.map] at outcome
        exact execute_ok healthy (by simp only [holds.insert_ok outcome])
  | generated =>
    have outcome := l.insert_generated o draws
    simp only [Ledger.insertObservation, Ledger.observationId, Handle.insertObservation]
    cases next : l.observationTable.nextId draws with
    | error fault =>
      simp only [next] at outcome
      exact run_error healthy (holds.insert_error outcome)
    | ok id =>
      simp only [next] at outcome
      simp only [Except.mapError]
      unfold Ledger.keep at outcome ⊢
      cases refused : l.refusal o id with
      | some fault =>
        simp only [refused, Except.map] at outcome
        exact run_error healthy (holds.insert_error outcome)
      | none =>
        simp only [refused, Except.map] at outcome
        exact run_ok healthy (holds.insert_ok outcome)

theorem Holds.delete (holds : h.Holds l) (healthy : h.isPoisoned = false) (t : Table)
    (id : Int64) :
    run (Connection.delete t.name id) h =
      match l.delete t id with
      | .ok (count, after) =>
        (.ok count, { h with
          connection := { h.connection with database := after.database }
          lastError := "" })
      | .error fault => (.error fault, { h with lastError := fault.bareMessage }) := by
  have outcome := l.delete_database t id
  have statement : h.connection.database.delete h.connection.enforcesReferences t.name id =
      l.database.delete true t.name id := by
    rw [holds.database, holds.enforced]
  rw [← statement] at outcome
  unfold Ledger.delete
  -- A row that others refer to cannot go, and to delete a row that is not there is no failure.
  by_cases present : (l.table t).hasRow id
  · by_cases referred : (l.remove id t).database.isReferred t.name id
    · simp only [if_pos present, if_pos referred] at outcome ⊢
      refine run_error healthy ?_
      simp only [Connection.delete, outcome, bind, Except.bind]
    · simp only [if_pos present, if_neg referred] at outcome ⊢
      refine run_ok healthy ?_
      simp only [Connection.delete, outcome, bind, Except.bind, Connection.written, holds.writable]
      rfl
  · simp only [if_neg present] at outcome ⊢
    refine run_ok healthy ?_
    simp only [Connection.delete, outcome, bind, Except.bind]
    rw [← holds.database]
    rfl

end Handle

end ObsCatalog
