import ObsCatalog.Proofs.Catalog.Filter
import ObsCatalog.Proofs.Catalog.Joining
import ObsCatalog.Proofs.Catalog.Sequence
import ObsCatalog.Proofs.Sql.Equality

/-! Filters for equality.

The equality of a column with a value of its type admits the rows that hold an equal value
there, whatever the value is. A value that is missing, or is no number, equals nothing.
-/

set_option autoImplicit false

namespace ObsCatalog

open Sql (Affinity Cell ColumnRef Engine Mention StoredRow)

namespace Value

/-- Values of one type are equal: numbers by their value, texts by their bytes. -/
def equals : Value → Value → Bool
  | .integer m, .integer n => m == n
  | .real x, .real y => x == y
  | .text a, .text b => a == b
  | _, _ => false

/-- Nothing, or what is no number. -/
def isMissing : Value → Bool
  | .null => true
  | .real x => x.isNaN
  | _ => false

def isOf : Value → Affinity → Bool
  | .integer _, .integer => true
  | .real _, .real => true
  | .text _, .text => true
  | _, _ => false

theorem equals_of_isMissing {v : Value} (missing : v.isMissing) (w : Value) :
    w.equals v = false := by
  cases v with
  | null => cases w <;> rfl
  | real x => cases w <;> simp [equals, Real.beq_of_isNaN missing]
  | _ => cases missing

end Value

namespace Sql

/-- The columns of a table with the types that they are declared with, the key first. -/
def Table.typedColumns (t : Table) : List (String × Affinity) :=
  (t.key, .integer) :: t.columns.map fun c => (c.name, c.affinity)

namespace Cell

theorem ofValue_of_isMissing {v : Value} (missing : v.isMissing) : ofValue v = .null := by
  cases v with
  | null => rfl
  | real x => exact if_pos missing
  | _ => cases missing

/-- The cell holds a value of a type, and it is a number if the type is one of numbers. -/
inductive Keeps : Affinity → Cell → Prop where
  | integer (n : Int64) : Keeps .integer (.integer n)
  | real {x : Float} : x.isNaN = false → Keeps .real (.real x)
  | text (s : String) : Keeps .text (.text s)

/-- A cell is compared with a value of its column's type by what it holds. -/
theorem Keeps.compared {a : Affinity} {c : Cell} (keeps : Keeps a c) {v : Value}
    (known : v.isOf a ∨ v.isMissing) :
    (c.compared (Affinity.conversion (some a) none) .equal (ofValue v) == some true) =
      c.value.equals v := by
  by_cases missing : v.isMissing
  · rw [ofValue_of_isMissing missing, compared_null, Value.equals_of_isMissing missing]
    rfl
  -- A value that is not missing is bound as it is, and no conversion changes either side.
  have typed := known.resolve_right missing
  cases keeps with
  | integer n =>
    cases v with
    | integer m =>
      show (Cell.compared .numeric .equal (.integer n) (.integer m) == some true) = (n == m)
      rw [compared_integer]
      simp
    | _ => cases typed
  | @real x number =>
    cases v with
    | real y =>
      have given : ofValue (.real y) = .real y := if_neg missing
      rw [given]
      show (Cell.compared .numeric .equal (.real x) (.real y) == some true) = (x == y)
      rw [compared_real number]
      simp
    | _ => cases typed
  | text s =>
    cases v with
    | text other =>
      show (Cell.compared .text .equal (.text s) (.text other) == some true) = (s == other)
      rw [compared_text]
      simp
    | _ => cases typed

end Cell

end Sql

/-- A column of a table of a catalog, as conditions and rows know it. -/
structure IsColumn (t : Table) (s : Sql.Table) (column : String) (c : ColumnRef) : Prop where
  plain : Sql.IsPlainName column
  known : Mention.columnOf s column = some c
  kept : ∀ r ∈ s.rows, (r.cell c).Keeps c.affinity
  shown : ∀ r ∈ s.rows, (Handle.shown t s r).get? column = some (r.cell c).value

/-- The table of a shelf has the columns of the blank one, and the cells of its entries. -/
theorem Shelf.isColumn {α : Type} [Kept α] {entries : Shelf α} {blank : Sql.Table} {t : Table}
    {column : String} {c : ColumnRef} (plain : Sql.IsPlainName column)
    (known : Mention.columnOf blank column = some c)
    (cells : ∀ e ∈ entries.entries, ((Kept.row e).cell c).Keeps c.affinity ∧
      (Handle.shown t blank (Kept.row e)).get? column = some ((Kept.row e).cell c).value) :
    IsColumn t (entries.table blank) column c where
  plain := plain
  known := known
  kept := List.forall_mem_map.2 fun e entry => (cells e entry).1
  shown := List.forall_mem_map.2 fun e entry => (cells e entry).2

namespace Ledger

variable {l : Ledger} {column : String} {a : Affinity}

theorem exists_isColumn_source (declared : (column, a) ∈ l.sourceTable.typedColumns) :
    ∃ c, c.affinity = a ∧ IsColumn .source l.sourceTable column c := by
  have columns : l.sourceTable.typedColumns = [("id", .integer), ("name", .text),
    ("authenticator", .text), ("create_time", .text)] := rfl
  rw [columns] at declared
  simp only [List.mem_cons, List.not_mem_nil, or_false, Prod.mk.injEq] at declared
  obtain ⟨rfl, rfl⟩ | ⟨rfl, rfl⟩ | ⟨rfl, rfl⟩ | ⟨rfl, rfl⟩ := declared
  · exact ⟨⟨none, .integer⟩, rfl, Shelf.isColumn ⟨rfl, rfl⟩ rfl fun _ _ => ⟨.integer _, rfl⟩⟩
  · exact ⟨⟨some 0, .text⟩, rfl, Shelf.isColumn ⟨rfl, rfl⟩ rfl fun _ _ => ⟨.text _, rfl⟩⟩
  · exact ⟨⟨some 1, .text⟩, rfl, Shelf.isColumn ⟨rfl, rfl⟩ rfl fun _ _ => ⟨.text _, rfl⟩⟩
  · exact ⟨⟨some 2, .text⟩, rfl, Shelf.isColumn ⟨rfl, rfl⟩ rfl fun _ _ => ⟨.text _, rfl⟩⟩

theorem Sound.exists_isColumn_observation (sound : l.Sound)
    (declared : (column, a) ∈ l.observationTable.typedColumns) :
    ∃ c, c.affinity = a ∧ IsColumn .observation l.observationTable column c := by
  have columns : l.observationTable.typedColumns = [("id", .integer), ("source_id", .integer),
    ("julian_date", .real), ("polarization", .text), ("length_days", .real)] := rfl
  -- The deployments differ in the sequence alone.
  have known (name : String) :
      Mention.columnOf (Schema.observationTable l.deployment.idPolicy) name =
        Mention.columnOf (Schema.observationTable .assigned) name := rfl
  rw [columns] at declared
  simp only [List.mem_cons, List.not_mem_nil, or_false, Prod.mk.injEq] at declared
  obtain ⟨rfl, rfl⟩ | ⟨rfl, rfl⟩ | ⟨rfl, rfl⟩ | ⟨rfl, rfl⟩ | ⟨rfl, rfl⟩ := declared
  · exact ⟨⟨none, .integer⟩, rfl, Shelf.isColumn ⟨rfl, rfl⟩ (known _) fun _ _ =>
      ⟨.integer _, rfl⟩⟩
  · exact ⟨⟨some 0, .integer⟩, rfl, Shelf.isColumn ⟨rfl, rfl⟩ (known _) fun _ _ =>
      ⟨.integer _, rfl⟩⟩
  · exact ⟨⟨some 1, .real⟩, rfl, Shelf.isColumn ⟨rfl, rfl⟩ (known _) fun o entry =>
      ⟨.real (sound.numbers o entry).1, rfl⟩⟩
  · exact ⟨⟨some 2, .text⟩, rfl, Shelf.isColumn ⟨rfl, rfl⟩ (known _) fun _ _ =>
      ⟨.text _, rfl⟩⟩
  · exact ⟨⟨some 3, .real⟩, rfl, Shelf.isColumn ⟨rfl, rfl⟩ (known _) fun o entry =>
      ⟨.real (sound.numbers o entry).2, rfl⟩⟩

theorem Sound.exists_isColumn (sound : l.Sound) {t : Table}
    (declared : (column, a) ∈ (l.table t).typedColumns) :
    ∃ c, c.affinity = a ∧ IsColumn t (l.table t) column c := by
  cases t with
  | source => exact exists_isColumn_source declared
  | observation => exact sound.exists_isColumn_observation declared

end Ledger

def Row.hasEqual (r : Row) (column : String) (v : Value) : Bool :=
  (r.get? column).any (·.equals v)

theorem Row.hasEqual_of_isMissing {v : Value} (missing : v.isMissing) (r : Row)
    (column : String) : r.hasEqual column v = false := by
  cases known : r.get? column with
  | none => rw [Row.hasEqual, known, Option.any_none]
  | some w => rw [Row.hasEqual, known, Option.any_some, Value.equals_of_isMissing missing w]

namespace IsColumn

variable {t : Table} {s : Sql.Table} {column : String} {c : ColumnRef} {v : Value}

theorem eq_ok (isColumn : IsColumn t s column c) (v : Value) :
    Filter.eq column v = .ok ⟨column ++ " = ?", [v]⟩ :=
  Filter.eq_eq_ok_iff.2 ⟨isColumn.plain.1, rfl⟩

/-- The equality of a column with a value admits the rows with a matching cell. -/
theorem admits {engine : Engine} {db : Sql.Database} (isColumn : IsColumn t s column c)
    (v : Value) :
    Filter.Admits engine db s ⟨column ++ " = ?", [v]⟩ (fun r => r.matches c (Cell.ofValue v))
      True :=
  Sql.Select.means_equality isColumn.plain isColumn.known (Cell.ofValue v)

/-- A cell matches a value of its column's type if the row is shown with an equal one. -/
theorem matches_eq (isColumn : IsColumn t s column c) (typed : v.isOf c.affinity ∨ v.isMissing)
    {r : StoredRow} (member : r ∈ s.rows) :
    r.matches c (Cell.ofValue v) = (Handle.shown t s r).hasEqual column v := by
  rw [Row.hasEqual, isColumn.shown r member, Option.any_some]
  exact (isColumn.kept r member).compared typed

end IsColumn

namespace Ledger

variable {l : Ledger}

/-- Rows of records are read as the records, however they are chosen. -/
theorem Sound.mapM_sources (sound : l.Sound) (p : Row → Bool) :
    ((l.rows .source).filter p).mapM Source.ofRow =
      .ok (l.sources.entries.filter fun s => p s.row) := by
  show ((l.sources.entries.map Source.row).filter p).mapM Source.ofRow = _
  rw [List.filter_map]
  exact mapM_ofRow fun s member =>
    Source.ofRow_row (sound.whole s (List.mem_of_mem_filter member))

theorem mapM_observations (l : Ledger) (p : Row → Bool) :
    ((l.rows .observation).filter p).mapM Observation.ofRow =
      .ok (l.observations.entries.filter fun o => p o.row) := by
  show ((l.observations.entries.map Observation.row).filter p).mapM Observation.ofRow = _
  rw [List.filter_map]
  exact mapM_ofRow fun o _ => o.ofRow_row

end Ledger

namespace Handle

variable {h : Handle} {l : Ledger} {t : Table} {column : String} {a : Affinity} {v : Value}

theorem Holds.enumerate_eq (holds : h.Holds l) (sound : l.Sound) (healthy : h.isPoisoned = false)
    (declared : (column, a) ∈ (l.table t).typedColumns) (typed : v.isOf a ∨ v.isMissing) :
    ∃ f, Filter.eq column v = .ok f ∧ ∀ engine : Engine,
      (Handle.enumerate t (some f) engine h).1 = .ok ((l.rows t).filter (·.hasEqual column v)) := by
  obtain ⟨c, rfl, isColumn⟩ := sound.exists_isColumn declared
  have found : h.connection.database.table t.name = .ok (l.table t) :=
    holds.database ▸ l.table_database t
  have equal : (l.table t).rows.filter (fun r => r.matches c (Cell.ofValue v)) =
      (l.table t).rows.filter fun r => (shown t (l.table t) r).hasEqual column v :=
    List.filter_congr fun r member => isColumn.matches_eq typed member
  refine ⟨_, isColumn.eq_ok v, fun engine => ?_⟩
  rw [enumerate_of_admits healthy found (isColumn.admits v) trivial, equal, ← map_selectedRow,
    List.filter_map]
  rfl

end Handle

end ObsCatalog
