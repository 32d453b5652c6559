import ObsCatalog.Sql.Affinity
import ObsCatalog.Sql.Fault

/-! Tables.

A table has a key column, which holds the id of each row, and further columns. Rows
stand in the order of their ids. A table with a sequence never gives an id again that
a row of it has ever had; one without a sequence only looks at the rows it has.
-/

set_option autoImplicit false

namespace ObsCatalog.Sql

/-- The random numbers that a statement draws, in order. -/
def Draws := Nat → Int64

namespace Draws

/-- The numbers in order, where it does not matter what is drawn. -/
def inOrder : Draws := Int64.ofNat

/-- The id that is made from a number drawn: its lower 62 bits, counted from one. -/
def id (draws : Draws) (i : Nat) : Int64 := Int64.ofInt ((draws i).toInt % 4611686018427387904 + 1)

end Draws

structure Column where
  name : String
  affinity : Affinity
  /-- Null is refused. -/
  required : Bool
  /-- The index on the column, if there is one. -/
  index : Option String
  /-- The cell of rows that are given none. -/
  fill : Cell

/-- What stands in a row that is given no cell for the column. -/
def Column.filled (c : Column) : Cell := c.affinity.stored c.fill

structure Reference where
  column : String
  table : String
  deriving DecidableEq, Repr

structure StoredRow where
  id : Int64
  cells : List Cell

structure Table where
  name : String
  key : String
  /-- The columns after the key. -/
  columns : List Column
  /-- The greatest id that has been given, for tables that never give an id twice. -/
  sequence : Option Int64
  /-- The only id that is allowed, if the table has room for one row. -/
  onlyId : Option Int64
  references : List Reference
  rows : List StoredRow

/-- Names of columns are compared without regard to the case of ASCII letters. -/
def sameName (a b : String) : Bool :=
  a.toList.map Char.toLower == b.toList.map Char.toLower

namespace Table

def columnNames (t : Table) : List String := t.key :: t.columns.map (·.name)

def hasColumn (t : Table) (name : String) : Bool := t.columnNames.any (sameName name)

def rowIdNames : List String := ["rowid", "_rowid_", "oid"]

def isRowIdName (name : String) : Bool := rowIdNames.any (sameName name)

def row? (t : Table) (id : Int64) : Option StoredRow := t.rows.find? (·.id == id)

def hasRow (t : Table) (id : Int64) : Bool := t.rows.any (·.id == id)

def greatestId? (t : Table) : Option Int64 := t.rows.getLast?.map (·.id)

/-- The first id that is drawn and that no row has. A hundred are drawn at most. -/
def freeId (t : Table) (draws : Draws) : Except Fault Int64 :=
  match ((List.range 100).map draws.id).find? fun id => !t.hasRow id with
  | some id => .ok id
  | none => .error .full

/-- The id of the next row that asks for none. No integer comes after the greatest: then
a table with a sequence is full, and one without draws ids until one is free. -/
def nextId (t : Table) (draws : Draws) : Except Fault Int64 :=
  let successor (n : Int64) (otherwise : Except Fault Int64) : Except Fault Int64 :=
    if n = Int64.maxValue then otherwise else .ok (n + 1)
  match t.greatestId?, t.sequence with
  | none, none => .ok 1
  | some n, none => successor n (t.freeId draws)
  | none, some given => successor given (.error .full)
  | some n, some given => successor (if n < given then given else n) (.error .full)

def idFor (t : Table) (c : Cell) (draws : Draws) : Except Fault Int64 :=
  match c with
  | .null => t.nextId draws
  | c =>
    match Affinity.stored .integer c with
    | .integer n => .ok n
    | _ => .error .notInteger

def insertOrdered (r : StoredRow) : List StoredRow → List StoredRow
  | [] => [r]
  | s :: rest => if r.id < s.id then r :: s :: rest else s :: insertOrdered r rest

theorem mem_insertOrdered {r x : StoredRow} {rows : List StoredRow} :
    x ∈ insertOrdered r rows ↔ x = r ∨ x ∈ rows := by
  induction rows with
  | nil => simp [insertOrdered]
  | cons s rest ih =>
    rw [insertOrdered]
    split
    · simp
    · rw [List.mem_cons, ih, List.mem_cons]
      exact ⟨fun h => h.elim (fun a => .inr (.inl a)) (·.imp id .inr),
        fun h => h.elim (fun a => .inr (.inl a)) (·.imp id .inr)⟩

def addRow (t : Table) (r : StoredRow) : Table :=
  { t with
    rows := insertOrdered r t.rows
    sequence := t.sequence.map fun given => if given < r.id then r.id else given }

def removeRow (t : Table) (id : Int64) : Table :=
  { t with rows := t.rows.filter (·.id != id) }

def missing? : List Column → List Cell → Option Column
  | column :: columns, c :: cells =>
    if column.required && c.isNull then some column else missing? columns cells
  | _, _ => none

/-- The condition that rows of the table with room for one row keep. -/
def checkText (t : Table) (only : Int64) : String :=
  t.key ++ " = " ++ Text.integerText only.toInt

/-- The rules that a row keeps by itself: columns that must not be null, and the only
id that is allowed. -/
def admits (t : Table) (r : StoredRow) : Except Fault Unit := do
  match missing? t.columns r.cells with
  | some column => throw (.required t.name column.name)
  | none =>
    match t.onlyId with
    | some only => if r.id = only then pure () else throw (.check (t.checkText only))
    | none => pure ()

/-- The cell given for a column, or another one where none is given. -/
def given (name : String) (otherwise : Cell) : List String → List Cell → Cell
  | column :: columns, c :: cells =>
    if sameName name column then c else given name otherwise columns cells
  | _, _ => otherwise

/-- The cell that asks for an id. The key's own name goes before the other names by which
it can be reached. -/
def asked (t : Table) (names : List String) (cells : List Cell) : Cell :=
  match given t.key .null names cells with
  | .null => rowIdNames.foldr (fun name other =>
      match given name .null names cells with
      | .null => other
      | c => c) .null
  | c => c

def rowFor (t : Table) (id : Int64) (names : List String) (cells : List Cell) : StoredRow :=
  ⟨id, t.columns.map fun column =>
    column.affinity.stored (given column.name column.fill names cells)⟩

def insertRow (t : Table) (row : StoredRow) : Except Fault Table := do
  t.admits row
  if t.hasRow row.id then throw (.duplicateKey t.name t.key)
  pure (t.addRow row)

def insert (t : Table) (names : List String) (cells : List Cell) (draws : Draws) :
    Except Fault (StoredRow × Table) := do
  let id ← t.idFor (t.asked names cells) draws
  let row := t.rowFor id names cells
  pure (row, ← t.insertRow row)

def assigned (t : Table) (names : List String) (cells : List Cell) (r : StoredRow) : StoredRow :=
  { r with
    cells := (t.columns.zip r.cells).map fun (column, c) =>
      if names.any (sameName column.name) then
        column.affinity.stored (given column.name .null names cells)
      else c }

/-- Replace cells in the row with an id; says how many rows there were. -/
def update (t : Table) (id : Int64) (names : List String) (cells : List Cell) :
    Except Fault (Nat × Table) :=
  match t.row? id with
  | none => .ok (0, t)
  | some r => do
    let changed := t.assigned names cells r
    t.admits changed
    pure (1, { t with rows := t.rows.map fun s => if s.id == id then changed else s })

def addColumn (t : Table) (column : Column) : Except Fault Table :=
  if t.hasColumn column.name then .error (.duplicateColumn column.name)
  else if column.required && column.fill.isNull && !t.rows.isEmpty then .error .nullColumn
  else .ok { t with
    columns := t.columns ++ [column]
    rows := t.rows.map fun r => { r with cells := r.cells ++ [column.filled] } }

/-- The text of a change of columns, up to the name of the column. -/
def alterLead (t : Table) (change : String) : String :=
  "ALTER TABLE " ++ t.name ++ " " ++ change ++ " COLUMN "

def noAltered (lead column rest : String) : Fault :=
  .located (.noAltered column) (lead ++ column ++ rest) lead.utf8ByteSize

def dropColumn (t : Table) (name : String) : Except Fault Table :=
  match t.columns.findIdx? (fun column => sameName name column.name) with
  | none =>
    .error (if sameName name t.key then .keyColumn name
      else noAltered (t.alterLead "DROP") name "")
  | some i =>
    match t.columns[i]? with
    | some ⟨indexed, _, _, some index, _⟩ => .error (.indexedColumn index indexed)
    | _ => .ok { t with
        columns := t.columns.eraseIdx i
        references := t.references.filter fun r => !sameName name r.column
        rows := t.rows.map fun r => { r with cells := r.cells.eraseIdx i } }

/-- The first name that is the same as an earlier one or one that has been seen. -/
def repeatedAfter (seen : List String) : List String → Option String
  | [] => none
  | name :: rest =>
    if seen.any (sameName name) then some name else repeatedAfter (name :: seen) rest

def renameColumn (t : Table) (name target : String) : Except Fault Table :=
  if !t.hasColumn name then .error (noAltered (t.alterLead "RENAME") name (" TO " ++ target))
  else
    let renamed (old : String) : String := if sameName name old then target else old
    match repeatedAfter [] (t.columnNames.map renamed) with
    | some again => .error (.renamedTwice t.name again)
    | none => .ok { t with
        key := renamed t.key
        columns := t.columns.map fun column => { column with name := renamed column.name }
        references := t.references.map fun r => { r with column := renamed r.column } }

end Table

end ObsCatalog.Sql
