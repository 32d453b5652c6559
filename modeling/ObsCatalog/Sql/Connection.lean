import ObsCatalog.Sql.Select

/-! Connections.

A connection works on one database. It enforces references or does not, remembers the
id of the row that it added last, and may be unable to write. A statement that fails
leaves all of this as it was.
-/

set_option autoImplicit false

namespace ObsCatalog.Sql

structure Connection where
  database : Database
  enforcesReferences : Bool
  lastInsertId : Int64
  isWritable : Bool

namespace Connection

def new (database : Database) : Connection := ⟨database, true, 0, true⟩

/-- A statement yields a result and changes the connection, or fails. -/
abbrev Statement (α : Type) := Connection → Except Fault (α × Connection)

/-- The connection with its database changed, if it can write. -/
def written (c : Connection) (database : Database) : Except Fault Connection :=
  if c.isWritable then .ok { c with database } else .error .readOnly

def insert (table : String) (names : List String) (cells : List Cell)
    (draws : Draws := .inOrder) : Statement Int64 :=
  fun c => do
    let (id, database) ← c.database.insert c.enforcesReferences table names cells draws
    let c ← c.written database
    pure (id, { c with lastInsertId := id })

def replace (table : String) (id : Int64) (names : List String) (cells : List Cell) :
    Statement Int64 :=
  fun c => do
    let (id, database) ← c.database.replace c.enforcesReferences table id names cells
    let c ← c.written database
    pure (id, { c with lastInsertId := id })

def delete (table : String) (id : Int64) : Statement Nat := fun c => do
  let (count, database) ← c.database.delete c.enforcesReferences table id
  if count = 0 then pure (0, c)
  else
    let c ← c.written database
    pure (count, c)

def update (table : String) (id : Int64) (names : List String) (cells : List Cell) :
    Statement Nat :=
  fun c => do
    let (count, database) ← c.database.update table id names cells
    if count = 0 then pure (0, c)
    else
      let c ← c.written database
      pure (count, c)

def alter (change : Database → Except Fault Database) : Statement Unit := fun c => do
  let database ← change c.database
  let c ← c.written database
  pure ((), c)

def dropTable (table : String) : Statement Unit := fun c =>
  alter (·.dropTable c.enforcesReferences table) c

def enforceReferences (on : Bool) : Statement Unit := fun c =>
  .ok ((), { c with enforcesReferences := on })

def select (engine : Engine) (s : Select) (parameters : List Cell) : Statement Selected :=
  fun c => do
    let selected ← s.run c.database parameters engine
    pure (selected, c)

def count (table : String) : Statement Nat := fun c => do
  let t ← c.database.table table
  pure (t.rows.length, c)

end Connection

end ObsCatalog.Sql
