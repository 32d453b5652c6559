import ObsCatalog.Calendar.Stamp
import ObsCatalog.Catalog.Fault
import ObsCatalog.Catalog.Value
import ObsCatalog.Record.Observation
import ObsCatalog.Record.Source

/-! Rows.

A row pairs the names of columns with values, in the order in which they were selected.
Records are read from rows by the names of the columns, so neither their order nor
further columns matter.
-/

set_option autoImplicit false

namespace ObsCatalog

inductive Table where
  | source
  | observation
  deriving DecidableEq, Repr

def Table.name : Table → String
  | .source => "source"
  | .observation => "observation"

structure Row where
  table : Table
  columns : List String
  values : List Value

namespace Row

/-- The value of the first column with a name. -/
def get? (r : Row) (column : String) : Option Value :=
  ((r.columns.zip r.values).find? (·.1 = column)).map (·.2)

def mismatch {α : Type} (r : Row) (column reason : String) : Except CatalogFault α :=
  .error (.rowMapping r.table.name column reason)

def require (r : Row) (column : String) : Except CatalogFault Value :=
  match r.get? column with
  | some v => .ok v
  | none => r.mismatch column "column missing from row"

def wrongType {α : Type} (r : Row) (column expected : String) (found : Value) :
    Except CatalogFault α :=
  r.mismatch column ("expected " ++ expected ++ ", found " ++ found.typeName)

def integer (r : Row) (column : String) : Except CatalogFault Int64 := do
  match ← r.require column with
  | .integer n => pure n
  | other => r.wrongType column "integer" other

/-- A real; integers are widened. -/
def real (r : Row) (column : String) : Except CatalogFault Float := do
  match ← r.require column with
  | .real x => pure x
  | .integer n => pure (Real.ofInt n.toInt)
  | other => r.wrongType column "real" other

def text (r : Row) (column : String) : Except CatalogFault String := do
  match ← r.require column with
  | .text s => pure s
  | other => r.wrongType column "text" other

def time (r : Row) (column : String) : Except CatalogFault Calendar.Instant := do
  match Calendar.Stamp.read (← r.text column) with
  | .ok t => pure t
  | .error fault => r.mismatch column fault.message

def json (r : Row) : Json :=
  .object ((r.columns.zip r.values).map fun (column, v) => (column, v.json))

end Row

def Source.ofRow (r : Row) : Except CatalogFault Source := do
  let id ← r.integer "id"
  let name ← r.text "name"
  let authenticator ← r.text "authenticator"
  let createTime ← r.time "create_time"
  pure ⟨id, name, authenticator, createTime⟩

def Observation.ofRow (r : Row) : Except CatalogFault Observation := do
  let id ← r.integer "id"
  let sourceId ← r.integer "source_id"
  let julianDate ← r.real "julian_date"
  let polarization ← r.text "polarization"
  let lengthDays ← r.real "length_days"
  pure ⟨id, sourceId, julianDate, polarization, lengthDays⟩

end ObsCatalog
