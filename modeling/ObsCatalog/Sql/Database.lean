import ObsCatalog.Sql.Table

/-! Databases.

A database is a set of tables with different names. Rows of one table can refer to
rows of another; while references are enforced, none is left without the row it
refers to. A statement that fails changes nothing.
-/

set_option autoImplicit false

namespace ObsCatalog.Sql

structure Database where
  tables : List Table

namespace Database

def empty : Database := ⟨[]⟩

def table? (db : Database) (name : String) : Option Table := db.tables.find? (·.name = name)

def table (db : Database) (name : String) : Except Fault Table :=
  match db.table? name with
  | some t => .ok t
  | none => .error (.noTable name)

def withTable (db : Database) (t : Table) : Database :=
  ⟨db.tables.map fun s => if s.name = t.name then t else s⟩

def createTable (db : Database) (t : Table) : Database :=
  match db.table? t.name with
  | some _ => db
  | none => ⟨db.tables ++ [t]⟩

theorem table?_createTable (db : Database) (t : Table) :
    ∃ s, (db.createTable t).table? t.name = some s ∧ (db.table? t.name = none → s = t) := by
  rw [createTable]
  split
  · next s found => exact ⟨s, found, fun absent => by simp [found] at absent⟩
  · next absent =>
    have none : db.tables.find? (fun s => decide (s.name = t.name)) = none := absent
    exact ⟨t, by simp [table?, List.find?_append, none], fun _ => rfl⟩

def checkReferenced (db : Database) (t : Table) : Except Fault Unit :=
  match t.references.find? fun r => (db.table? r.table).isNone with
  | some r => .error (.noTable ("main." ++ r.table))
  | none => .ok ()

def cellOf (t : Table) (r : StoredRow) (column : String) : Cell :=
  Table.given column .null (t.columns.map (·.name)) r.cells

def refersTo (c : Cell) (id : Int64) : Bool :=
  match Affinity.stored .integer c with
  | .integer n => n == id
  | _ => false

def referencesHold (db : Database) (t : Table) (r : StoredRow) : Bool :=
  t.references.all fun reference =>
    let c := cellOf t r reference.column
    c.isNull || ((db.table? reference.table).elim false fun target =>
      target.rows.any fun s => refersTo c s.id)

def isReferred (db : Database) (name : String) (id : Int64) : Bool :=
  db.tables.any fun t =>
    t.references.any fun reference =>
      reference.table = name && t.rows.any fun r => refersTo (cellOf t r reference.column) id

def insert (db : Database) (enforced : Bool) (name : String) (names : List String)
    (cells : List Cell) (draws : Draws := .inOrder) : Except Fault (Int64 × Database) := do
  let t ← db.table name
  match names.find? fun column => !(t.hasColumn column || Table.isRowIdName column) with
  | some column => throw (.noTarget name column)
  | none =>
    if enforced then db.checkReferenced t
    let (row, changed) ← t.insert names cells draws
    -- A row may refer to itself, so references are checked with the row in place.
    let db := db.withTable changed
    if enforced && !db.referencesHold changed row then throw .reference
    pure (row.id, db)

def replace (db : Database) (enforced : Bool) (name : String) (id : Int64) (names : List String)
    (cells : List Cell) (draws : Draws := .inOrder) : Except Fault (Int64 × Database) := do
  let t ← db.table name
  (db.withTable (t.removeRow id)).insert enforced name names cells draws

def checkKey (t : Table) (key statement : String) (offset : Nat) : Except Fault Unit :=
  if t.hasColumn key then .ok () else .error (.located (.noColumn key) statement offset)

def delete (db : Database) (enforced : Bool) (name : String) (id : Int64) :
    Except Fault (Nat × Database) := do
  let t ← db.table name
  let statement := "DELETE FROM " ++ name ++ " WHERE id = ?"
  checkKey t "id" statement ("DELETE FROM " ++ name ++ " WHERE ").utf8ByteSize
  if enforced then db.checkReferenced t
  if t.hasRow id then
    let db := db.withTable (t.removeRow id)
    if enforced && db.isReferred name id then throw .reference
    pure (1, db)
  else pure (0, db)

def updateLead (name : String) (names : List String) : String :=
  "UPDATE " ++ name ++ " SET " ++ String.intercalate ", " (names.map (· ++ " = ?")) ++ " WHERE "

/-- Replace cells in the row with an id; says how many rows there were. -/
def update (db : Database) (name : String) (id : Int64) (names : List String)
    (cells : List Cell) : Except Fault (Nat × Database) := do
  let t ← db.table name
  match names.find? fun column => !t.hasColumn column with
  | some column => throw (.noAssigned column)
  | none =>
    let lead := updateLead name names
    checkKey t "id" (lead ++ "id = " ++ Text.integerText id.toInt) lead.utf8ByteSize
    let (count, t) ← t.update id names cells
    pure (count, db.withTable t)

def addColumn (db : Database) (name column : String) (affinity : Affinity := .none)
    (required : Bool := false) (fill : Cell := .null) : Except Fault Database := do
  let t ← db.table name
  pure (db.withTable (← t.addColumn ⟨column, affinity, required, none, fill⟩))

def dropColumn (db : Database) (name column : String) : Except Fault Database := do
  pure (db.withTable (← (← db.table name).dropColumn column))

def renameColumn (db : Database) (name column target : String) : Except Fault Database := do
  pure (db.withTable (← (← db.table name).renameColumn column target))

/-- Remove a table. No row of another table may still refer to one of its rows. -/
def dropTable (db : Database) (enforced : Bool) (name : String) : Except Fault Database := do
  let t ← db.table name
  let rest : Database := ⟨db.tables.filter (·.name ≠ name)⟩
  if enforced && t.rows.any fun r => rest.isReferred name r.id then throw .reference
  pure rest

end Database

end ObsCatalog.Sql
