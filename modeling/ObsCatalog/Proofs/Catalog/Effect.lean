import ObsCatalog.Proofs.Catalog.Operation

/-! What an operation does to a database.

An operation depends on nothing but the deployment of the handle and the database that it
works on: neither on the path, nor on what was remembered of earlier operations. So any
handle can be put in the place of another one that works on the same database. This holds
of every database, be it that of a ledger or not.
-/

set_option autoImplicit false

namespace ObsCatalog

open Sql (Cell Connection Database)

namespace Handle

variable {α β : Type} {d : Deployment} {db next : Database}

/-- The handle works on a database of a deployment and can write to it. What it remembers of
earlier operations is left open. -/
structure Works (h : Handle) (d : Deployment) (db : Database) : Prop where
  deployment : h.deployment = d
  database : h.connection.database = db
  enforced : h.connection.enforcesReferences = true
  writable : h.connection.isWritable = true
  healthy : h.isPoisoned = false

/-- Whatever handle works on the database, the action answers the same through it and makes
the same of the database. -/
def Determines (action : Action α) (d : Deployment) (db : Database)
    (result : Except CatalogFault α) (next : Database) : Prop :=
  ∀ h : Handle, h.Works d db →
    (action h).1 = result ∧ (action h).2.Works d next ∧ (action h).2.path = h.path

/-- The action has one outcome on the database, which leaves its stamp as it is. -/
def Settles (action : Action α) (d : Deployment) (db : Database) : Prop :=
  ∃ result next, Determines action d db result next ∧
    next.table? Schema.stampName = db.table? Schema.stampName

theorem Works.execute_ok {h : Handle} {task : Connection → Except CatalogFault (α × Connection)}
    {a : α} {c : Connection} (works : h.Works d db) (done : task h.connection = .ok (a, c))
    (left : c.database = next) (enforced : c.enforcesReferences = true)
    (writable : c.isWritable = true) :
    (execute task h).1 = .ok a ∧ (execute task h).2.Works d next ∧
      (execute task h).2.path = h.path := by
  rw [Handle.execute_ok works.healthy done]
  exact ⟨rfl, ⟨works.deployment, left, enforced, writable, works.healthy⟩, rfl⟩

theorem Works.execute_error {h : Handle}
    {task : Connection → Except CatalogFault (α × Connection)} {fault : CatalogFault}
    (works : h.Works d db) (failed : task h.connection = .error fault) :
    (execute task h).1 = .error fault ∧ (execute task h).2.Works d db ∧
      (execute task h).2.path = h.path := by
  rw [Handle.execute_error works.healthy failed]
  exact ⟨rfl, ⟨works.deployment, works.database, works.enforced, works.writable, works.healthy⟩,
    rfl⟩

theorem settles_reading {task : Connection → Except CatalogFault (α × Connection)}
    (result : Except CatalogFault α)
    (reads : ∀ c : Connection, c.database = db → task c = result.map (·, c)) (d : Deployment) :
    Settles (execute task) d db := by
  refine ⟨result, db, ?_, rfl⟩
  intro h works
  have done := reads h.connection works.database
  cases result with
  | ok a => exact works.execute_ok done works.database works.enforced works.writable
  | error fault => exact works.execute_error done

theorem settles_select (engine : Sql.Engine) (t : Table) (s : Sql.Select) (params : List Value)
    (d : Deployment) (db : Database) : Settles (select engine t s params) d db := by
  refine settles_reading (((s.run db (params.map Cell.ofValue) engine).map fun selected =>
    selected.rows.map fun cells => ⟨t, selected.columns, cells.map Cell.value⟩).mapError .query)
    (fun c holds => ?_) d
  simp only [Connection.select, holds]
  cases s.run db (params.map Cell.ofValue) engine <;> rfl

theorem Settles.reading {action : Action α} (settles : Settles action d db)
    (read : α → Except CatalogFault β) : Settles (reading action read) d db := by
  obtain ⟨result, next, determined, stamped⟩ := settles
  refine ⟨result.bind read, next, fun h works => ?_, stamped⟩
  obtain ⟨answered, after, path⟩ := determined h works
  unfold Handle.reading
  cases result with
  | ok a =>
    have done : action h = (.ok a, (action h).2) := Prod.ext answered rfl
    rw [done]
    exact ⟨rfl, after, path⟩
  | error fault =>
    have done : action h = (.error fault, (action h).2) := Prod.ext answered rfl
    rw [done]
    exact ⟨rfl, after, path⟩

theorem lookup_eq_reading (t : Table) (id : Int64) :
    lookup t id =
      reading (select .standard t (lookingUp t) [.integer id]) fun rows => .ok rows.head? := by
  funext h
  unfold lookup reading
  split <;> simp_all

/-- A statement that inserts a row into a table other than that of the stamp. -/
theorem settles_insert {task : Connection → Except CatalogFault (α × Connection)}
    {table : String} {names : List String} {cells : List Cell} {draws : Sql.Draws}
    (answer : Int64 → α)
    (inserts : ∀ c, task c = match Connection.insert table names cells draws c with
      | .ok (id, c) => .ok (answer id, c)
      | .error fault => .error (.query fault))
    (other : table ≠ Schema.stampName) (d : Deployment) (db : Database) :
    Settles (execute task) d db := by
  cases inserted : db.insert true table names cells draws with
  | error fault =>
    refine ⟨.error (.query fault), db, ?_, rfl⟩
    intro h works
    apply works.execute_error
    simp only [inserts, Connection.insert, works.database, works.enforced, inserted, bind,
      Except.bind]
  | ok pair =>
    obtain ⟨id, next⟩ := pair
    refine ⟨.ok (answer id), next, ?_, Database.table?_of_insert inserted other⟩
    intro h works
    have done : task h.connection =
        .ok (answer id, { h.connection with database := next, lastInsertId := id }) := by
      simp only [inserts, Connection.insert, works.database, works.enforced, inserted, bind,
        Except.bind, Connection.written, works.writable]
      rfl
    exact works.execute_ok done rfl works.enforced works.writable

theorem settles_run_insert {table : String} (names : List String) (cells : List Cell)
    (draws : Sql.Draws) (other : table ≠ Schema.stampName) (d : Deployment) (db : Database) :
    Settles (run (Connection.insert table names cells draws)) d db := by
  have inserts (c : Connection) : (Connection.insert table names cells draws c).mapError .query =
      match Connection.insert table names cells draws c with
      | .ok (id, c) => .ok (id, c)
      | .error fault => .error (CatalogFault.query fault) := by
    cases Connection.insert table names cells draws c <;> rfl
  exact settles_insert id inserts other d db

theorem settles_insertObservation (o : Observation) (policy : IdPolicy) (draws : Sql.Draws)
    (d : Deployment) (db : Database) : Settles (insertObservation o policy draws) d db := by
  cases policy with
  | generated => exact settles_run_insert _ _ _ (by decide) d db
  | assigned =>
    unfold insertObservation
    by_cases missing : o.id ≤ 0
    · simp only [if_pos missing]
      exact settles_reading (.error .missingId) (fun _ _ => rfl) d
    · simp only [if_neg missing]
      exact settles_insert (fun _ => o.id) (fun _ => rfl) (by decide) d db

theorem settles_statistics (fileBytes : Nat) (d : Deployment) (db : Database) :
    Settles (statistics fileBytes) d db := by
  have counted (table : String) : ∃ count : Except Sql.Fault Nat, ∀ c : Connection,
      c.database = db → Connection.count table c = count.map (·, c) := by
    refine ⟨(db.table table).map (·.rows.length), fun c holds => ?_⟩
    simp only [Connection.count, holds]
    cases db.table table <;> rfl
  obtain ⟨sources, countsSources⟩ := counted Table.source.name
  obtain ⟨observations, countsObservations⟩ := counted Table.observation.name
  -- What both counts give depends on the database alone.
  let found : Except Sql.Fault Statistics := do
    let sources ← sources
    let observations ← observations
    pure ⟨d, sources, observations, fileBytes⟩
  have reads (c : Connection) (holds : c.database = db) :
      ((do
        let first ← Connection.count Table.source.name c
        let second ← Connection.count Table.observation.name first.2
        pure (⟨d, first.1, second.1, fileBytes⟩, second.2)) :
          Except Sql.Fault (Statistics × Connection)).mapError CatalogFault.query =
        (found.mapError .query).map (·, c) := by
    simp only [countsSources c holds, found]
    cases sources with
    | error fault => rfl
    | ok count =>
      simp only [Except.map, bind, Except.bind, countsObservations c holds]
      cases observations <;> rfl
  obtain ⟨result, next, determined, stamped⟩ := settles_reading (found.mapError .query) reads d
  refine ⟨result, next, fun h works => ?_, stamped⟩
  have same := determined h works
  obtain rfl := works.deployment
  exact same

/-- The size of the file is put into the statistics and used for nothing else. -/
theorem statistics_eq (fileBytes : Nat) (h : Handle) :
    statistics fileBytes h = ((statistics 0 h).1.map fun s => { s with fileBytes },
      (statistics 0 h).2) := by
  unfold statistics run execute
  by_cases poisoned : h.isPoisoned
  · simp only [if_pos poisoned]
    rfl
  · simp only [if_neg poisoned]
    cases counts : Connection.count Table.source.name h.connection with
    | error fault => rfl
    | ok pair =>
      obtain ⟨sources, c⟩ := pair
      simp only [bind, Except.bind]
      cases Connection.count Table.observation.name c <;> rfl

end Handle

namespace Operation

open Handle

/-- An answer without the size of the file. -/
def unsized : (op : Operation) → Except CatalogFault op.Result → Except CatalogFault op.Result
  | .statistics, result => result.map fun s => { s with fileBytes := 0 }
  | .insertSource _ _, result => result
  | .insertObservation _ _ _, result => result
  | .getSource _, result => result
  | .getObservation _, result => result
  | .findSource _, result => result
  | .listSources _ _, result => result
  | .listObservations _ _, result => result
  | .enumerate _ _ _, result => result
  | .lookup _ _, result => result

/-- What an operation answers on a database, without the size of the file, and what it makes
of the database: that which comes of it through a new handle in memory. -/
def effect (d : Deployment) (db : Database) (op : Operation) :
    Except CatalogFault op.Result × Database :=
  let outcome := op.action ⟨[], []⟩ ⟨d, memoryPath, .new db, "", false⟩
  (op.unsized outcome.1, outcome.2.connection.database)

theorem settles (op : Operation) (d : Deployment) (db : Database) :
    ∃ result next, next.table? Schema.stampName = db.table? Schema.stampName ∧
      ∀ (h : Handle) (disk : CatalogDisk), h.Works d db →
        op.unsized (op.action disk h).1 = result ∧ (op.action disk h).2.Works d next ∧
          (op.action disk h).2.path = h.path := by
  have looked (t : Table) (id : Int64) : Settles (Handle.lookup t id) d db := by
    rw [lookup_eq_reading]
    exact (settles_select _ t _ _ d db).reading _
  -- All operations but the statistics ignore the disk and report no size.
  have of {action : Action op.Result} (settles : Settles action d db)
      (same : ∀ disk, op.action disk = action) (plain : ∀ result, op.unsized result = result) :
      ∃ result next, next.table? Schema.stampName = db.table? Schema.stampName ∧
        ∀ (h : Handle) (disk : CatalogDisk), h.Works d db →
          op.unsized (op.action disk h).1 = result ∧ (op.action disk h).2.Works d next ∧
            (op.action disk h).2.path = h.path := by
    obtain ⟨result, next, determined, stamped⟩ := settles
    refine ⟨result, next, stamped, fun h disk works => ?_⟩
    rw [plain, same]
    exact determined h works
  cases op with
  | insertSource s draws =>
    exact of (settles_run_insert _ _ _ (by decide) d db) (fun _ => rfl) fun _ => rfl
  | insertObservation o policy draws =>
    exact of (settles_insertObservation o policy draws d db) (fun _ => rfl) fun _ => rfl
  | getSource id => exact of ((looked .source id).reading _) (fun _ => rfl) fun _ => rfl
  | getObservation id => exact of ((looked .observation id).reading _) (fun _ => rfl) fun _ => rfl
  | findSource authenticator =>
    exact of ((settles_select _ _ _ _ d db).reading _) (fun _ => rfl) fun _ => rfl
  | listSources filter engine =>
    exact of ((settles_select _ _ _ _ d db).reading _) (fun _ => rfl) fun _ => rfl
  | listObservations filter engine =>
    exact of ((settles_select _ _ _ _ d db).reading _) (fun _ => rfl) fun _ => rfl
  | enumerate t filter engine => exact of (settles_select _ _ _ _ d db) (fun _ => rfl) fun _ => rfl
  | lookup t id => exact of (looked t id) (fun _ => rfl) fun _ => rfl
  | statistics =>
    obtain ⟨result, next, determined, stamped⟩ := settles_statistics 0 d db
    refine ⟨(result.map fun s => { s with fileBytes := 0 } : Except CatalogFault Statistics), next,
      stamped, fun h disk works => ?_⟩
    obtain ⟨answered, after, path⟩ := determined h works
    show ((h.statisticsOn disk h).1.map fun s => { s with fileBytes := 0 }) = _ ∧
      (h.statisticsOn disk h).2.Works d next ∧ (h.statisticsOn disk h).2.path = h.path
    unfold statisticsOn
    rw [statistics_eq, answered]
    refine ⟨?_, after, path⟩
    cases result <;> rfl

variable {h : Handle} {d : Deployment} {db : Database}

/-- Through any handle on a database an operation has the effect that it has on the database. -/
theorem of_works (works : h.Works d db) (disk : CatalogDisk) (op : Operation) :
    op.unsized (op.action disk h).1 = (op.effect d db).1 ∧
      (op.action disk h).2.Works d (op.effect d db).2 ∧ (op.action disk h).2.path = h.path := by
  obtain ⟨result, next, -, determined⟩ := op.settles d db
  obtain ⟨answered, after, -⟩ := determined ⟨d, memoryPath, .new db, "", false⟩ ⟨[], []⟩
    ⟨rfl, rfl, rfl, rfl, rfl⟩
  have effect : op.effect d db = (result, next) := Prod.ext answered after.database
  rw [effect]
  exact determined h disk works

theorem stamp_effect (d : Deployment) (db : Database) (op : Operation) :
    Schema.stamp (op.effect d db).2 = Schema.stamp db := by
  obtain ⟨result, next, stamped, determined⟩ := op.settles d db
  obtain ⟨-, after, -⟩ := determined ⟨d, memoryPath, .new db, "", false⟩ ⟨[], []⟩
    ⟨rfl, rfl, rfl, rfl, rfl⟩
  have made : (op.effect d db).2 = next := after.database
  unfold Schema.stamp
  rw [made, stamped]

end Operation

end ObsCatalog
