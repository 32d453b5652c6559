import ObsCatalog.Proofs.Catalog.Effect

/-! Stamps of databases.

A database is stamped when it is opened for the first time, and every later opening for the
same deployment finds the stamp and leaves the database as it is. Operations never touch
the stamp.
-/

set_option autoImplicit false

namespace ObsCatalog.Schema

open Sql (Cell Connection Database StoredRow)

variable {db : Database} {d : Deployment} {now : Calendar.Instant}

def Stamped (db : Database) (d : Deployment) : Prop := stamp db = .ok (some ⟨version, d.name⟩)

theorem Stamped.effect (stamped : Stamped db d) (op : Operation) :
    Stamped (op.effect d db).2 d :=
  (op.stamp_effect d db).trans stamped

theorem Stamped.prepare (stamped : Stamped db d) (now : Calendar.Instant) :
    prepare d now (.new db) = (.ok .current, .new db) := by
  have read : stamp (Connection.new db).database = .ok (some ⟨version, d.name⟩) := stamped
  have accepted : refusal d ⟨version, d.name⟩ = none := by simp [refusal]
  simp only [Schema.prepare, read, accepted]

theorem eq_of_refusal {s : Stamp} (accepted : refusal d s = none) : s = ⟨version, d.name⟩ := by
  unfold refusal at accepted
  split at accepted
  · cases accepted
  next named =>
    split at accepted
    · cases accepted
    next known =>
      cases s
      simp only [ne_eq, Decidable.not_not] at named known
      rw [named, known]

/-- A table with the name of the stamp table is one that has been made as such. -/
def Native (db : Database) : Prop :=
  ∀ t, db.table? stampName = some t → ∃ rows, t = { stampTable with rows }

theorem native_empty : Native .empty := by
  intro t found
  cases found

theorem Native.createTables (native : Native db) (d : Deployment) :
    ∃ rows, (createTables d db).table? stampName = some { stampTable with rows } := by
  obtain ⟨t, found, fresh⟩ := Database.table?_createTable db stampTable
  have later := Database.table?_createTable_of_some
    (Database.table?_createTable_of_some found sourceTable) (observationTable d.idPolicy)
  cases known : db.table? stampName with
  | none =>
    obtain rfl := fresh known
    exact ⟨[], later⟩
  | some s =>
    have same : t = s := Option.some.inj
      (found.symm.trans (Database.table?_createTable_of_some known stampTable))
    obtain ⟨rows, shape⟩ := native s known
    rw [same, shape] at later
    exact ⟨rows, later⟩

def stampNames : List String := ["id", "version", "deployment", "updated_at"]

def stampCells (d : Deployment) (now : Calendar.Instant) : List Cell :=
  [.integer 1, .integer (Int64.ofInt version), .text d.name,
    .text (Calendar.Stamp.write now.wholeSecond)]

def stampRow (d : Deployment) (now : Calendar.Instant) : StoredRow := ⟨1, (stampCells d now).tail⟩

theorem stamp_of_row {rows : List StoredRow}
    (found : db.table? stampName = some { stampTable with rows })
    (row : rows.find? (·.id == 1) = some (stampRow d now)) : Stamped db d := by
  have column (name : String) : Sql.Mention.columnOf { stampTable with rows } name =
      Sql.Mention.columnOf stampTable name := rfl
  have columns : checkStampColumns { stampTable with rows } = .ok () := by
    simp only [checkStampColumns, column]
    rfl
  have stored : Sql.Table.row? { stampTable with rows } 1 = some (stampRow d now) := row
  simp only [Stamped, stamp, found, columns, stored, bind, Except.bind]
  rfl

theorem find?_insertOrdered {r : StoredRow} {rows : List StoredRow}
    (free : ∀ s ∈ rows, s.id ≠ r.id) :
    (Sql.Table.insertOrdered r rows).find? (·.id == r.id) = some r := by
  induction rows with
  | nil => simp [Sql.Table.insertOrdered]
  | cons s rest ih =>
    rw [Sql.Table.insertOrdered]
    split
    · simp
    · have other : (s.id == r.id) = false := by simpa using free s List.mem_cons_self
      rw [List.find?_cons, other]
      exact ih fun x member => free x (List.mem_cons_of_mem s member)

theorem insert_stampRow {t : Sql.Table} {rows : List StoredRow} {draws : Sql.Draws}
    (shape : t = { stampTable with rows }) (free : ∀ s ∈ rows, s.id ≠ 1) :
    t.insert stampNames (stampCells d now) draws =
      .ok (stampRow d now, t.addRow (stampRow d now)) := by
  subst shape
  have asked : Sql.Table.asked { stampTable with rows } stampNames (stampCells d now) =
      .integer 1 := by
    have key : Sql.sameName stampTable.key "id" = true := by decide
    simp only [Sql.Table.asked, stampNames, stampCells, Sql.Table.given, key, if_true]
  have admitted : Sql.Table.admits { stampTable with rows } (stampRow d now) = .ok () := rfl
  have used : Sql.Table.hasRow { stampTable with rows } 1 = false := by
    simpa [Sql.Table.hasRow] using free
  have row : Sql.Table.insertRow { stampTable with rows } (stampRow d now) =
      .ok (Sql.Table.addRow { stampTable with rows } (stampRow d now)) := by
    have id : (stampRow d now).id = 1 := rfl
    rw [Sql.Table.insertRow_eq, admitted, id, used]
    rfl
  have id : Sql.Table.idFor { stampTable with rows } (.integer 1) draws = .ok 1 := rfl
  have stored : Sql.Table.rowFor { stampTable with rows } 1 stampNames (stampCells d now) =
      stampRow d now := rfl
  rw [Sql.Table.insert_eq asked]
  simp only [id, stored, row]

theorem replace_stamp (d : Deployment) (now : Calendar.Instant) {rows : List StoredRow}
    (enforced : Bool) (found : db.table? stampName = some { stampTable with rows }) :
    ∃ next, db.replace enforced stampName 1 stampNames (stampCells d now) = .ok (1, next) ∧
      Stamped next d := by
  -- The stamp that may be there is taken out, so that its id is free for the new one.
  let t : Sql.Table := { stampTable with rows := rows.filter (·.id != 1) }
  have free : ∀ s ∈ rows.filter (·.id != 1), s.id ≠ 1 := by
    intro s member
    simpa using (List.mem_filter.1 member).2
  have table : db.table stampName = .ok { stampTable with rows } := by
    rw [Database.table, found]
  have removed : (db.withTable t).table? stampName = some t :=
    Database.table?_withTable_self (t := t) found
  have cleared : (db.withTable t).table stampName = .ok t := by
    rw [Database.table, removed]
  have targets : (stampNames.find? fun column =>
      !(stampTable.hasColumn column || Sql.Table.isRowIdName column)) = none := by decide
  have stored : ((db.withTable t).withTable (t.addRow (stampRow d now))).table? stampName =
      some (t.addRow (stampRow d now)) :=
    Database.table?_withTable_self (t := t.addRow (stampRow d now)) removed
  refine ⟨_, ?_, stamp_of_row stored (find?_insertOrdered (r := stampRow d now) free)⟩
  rw [Database.replace, table]
  show (db.withTable t).insert enforced stampName stampNames (stampCells d now) = _
  rw [Database.insert_eq cleared targets rfl, insert_stampRow rfl free]
  cases enforced <;> rfl

/-- What has been opened carries the stamp of its deployment, unless there was a table of
another making in the place of the stamp table. The connection can do what a new one can. -/
theorem stamped_of_prepare {opening : Opening} {c : Connection}
    (prepared : prepare d now (.new db) = (.ok opening, c))
    (native : opening = .current ∨ Native db) :
    Stamped c.database d ∧ c.enforcesReferences = true ∧ c.isWritable = true := by
  unfold prepare at prepared
  split at prepared
  · cases prepared
  · next none =>
    dsimp only at prepared
    split at prepared
    · cases prepared
    · next id after written =>
      cases prepared
      -- Without a stamp before, what was opened is not current, so the tables are native ones.
      obtain ⟨rows, found⟩ := (native.resolve_left (by simp)).createTables d
      obtain ⟨next, replaced, stamped⟩ := replace_stamp d now true found
      have same : Connection.replace stampName 1 stampNames (stampCells d now)
          { Connection.new db with database := Schema.createTables d db } = .ok (id, c) := written
      simp only [Connection.replace, Connection.new, replaced, bind, Except.bind,
        Connection.written, if_true] at same
      cases same
      exact ⟨stamped, rfl, rfl⟩
  · next s read =>
    split at prepared
    · cases prepared
    · next accepted =>
      cases prepared
      rw [eq_of_refusal accepted] at read
      exact ⟨read, rfl, rfl⟩

end ObsCatalog.Schema
