import ObsCatalog.Proofs.Catalog.Store
import ObsCatalog.Proofs.Catalog.Visit

/-! Rows that a table gains.

Two states of a database are compared, the first of which may be that of a missing one. A table
gains a row when it has one row more under a new id and no other row differs. Keeping a record
in a ledger makes its table gain the row of the record, and nothing else makes a table gain one.
-/

set_option autoImplicit false

namespace ObsCatalog

open Sql (Database StoredRow)

def rowsOf (db : Option Database) (name : String) : List StoredRow :=
  ((db.bind (·.table? name)).map (·.rows)).getD []

def selected (db : Option Database) (t : Table) (row : StoredRow) : Row :=
  ⟨t, ((db.bind (·.table? t.name)).map (·.columnNames)).getD [],
    (Sql.Cell.integer row.id :: row.cells).map Sql.Cell.value⟩

structure GainsRow (t : Table) (row : StoredRow) (before after : Option Database) : Prop where
  added : (rowsOf after t.name).Perm (row :: rowsOf before t.name)
  fresh : ∀ old ∈ rowsOf before t.name, old.id ≠ row.id
  others : ∀ name, name ≠ t.name → name ≠ Schema.stampName →
    rowsOf after name = rowsOf before name
  stamp : ∀ db, before = some db →
    ∃ next, after = some next ∧ next.table? Schema.stampName = db.table? Schema.stampName

namespace GainsRow

variable {t : Table} {row other : StoredRow} {before after : Option Database}

theorem differs (gains : GainsRow t row before after) :
    rowsOf after t.name ≠ rowsOf before t.name := by
  intro same
  have longer := gains.added.length_eq
  rw [same, List.length_cons] at longer
  omega

theorem unique (first : GainsRow t row before after) (second : GainsRow t other before after) :
    row = other := by
  have member : row ∈ other :: rowsOf before t.name :=
    (first.added.symm.trans second.added).mem_iff.1 List.mem_cons_self
  rcases List.mem_cons.1 member with same | old
  · exact same
  · exact absurd rfl (first.fresh row old)

/-- A record that is put on a shelf under a new id gives the table of the shelf a row more. -/
theorem of_add {α : Type} [Kept α] {shelf : Shelf α} {blank : Sql.Table} {db : Database}
    (named : blank.name = t.name) (found : db.table? t.name = some (shelf.table blank)) {a : α}
    (free : shelf.get? (Kept.key a) = none) :
    GainsRow t (Kept.row a) (some db) (some (db.withTable ((shelf.add a).table blank))) := by
  have own : ((shelf.add a).table blank).name = t.name := named
  have old : rowsOf (some db) t.name = shelf.entries.map Kept.row := by
    simp only [rowsOf, Option.bind_some, found]
    rfl
  have new : rowsOf (some (db.withTable ((shelf.add a).table blank))) t.name =
      (shelf.add a).entries.map Kept.row := by
    rw [← own] at found
    have written := Database.table?_withTable_self found
    rw [own] at written
    simp only [rowsOf, Option.bind_some, written]
    rfl
  have kept (name : String) (other : name ≠ t.name) :
      (db.withTable ((shelf.add a).table blank)).table? name = db.table? name :=
    Database.table?_withTable_of_ne db (by rw [own]; exact Ne.symm other)
  refine ⟨?_, fun row member => ?_, fun name other _ => ?_, ?_⟩
  · rw [old, new]
    exact (shelf.entries_add a).map Kept.row
  · rw [old] at member
    obtain ⟨b, entry, rfl⟩ := List.mem_map.1 member
    exact Shelf.get?_eq_none_iff.1 free b entry
  · simp only [rowsOf, Option.bind_some, kept name other]
  · rintro db ⟨⟩
    exact ⟨_, rfl, kept _ (by cases t <;> decide)⟩

end GainsRow

namespace Ledger

variable {l : Ledger}

theorem rowsOf_new (d : Deployment) (now : Calendar.Instant) {name : String}
    (other : name ≠ Schema.stampName) : rowsOf (some (new d now).database) name = [] := by
  have found : (new d now).database.table? name =
      if Table.source.name = name then some (new d now).sourceTable
      else if Table.observation.name = name then some (new d now).observationTable
      else none := by
    have names : (new d now).stampTable.name = Schema.stampName ∧
        (new d now).sourceTable.name = Table.source.name ∧
        (new d now).observationTable.name = Table.observation.name := ⟨rfl, rfl, rfl⟩
    simp only [Database.table?, database, List.find?_cons, List.find?_nil, names,
      decide_eq_false (Ne.symm other)]
    by_cases source : Table.source.name = name
    · simp only [source, decide_true, if_true]
    · by_cases observation : Table.observation.name = name
      · simp only [source, observation, decide_true, decide_false, if_true, if_false]
      · simp only [source, observation, decide_false, if_false]
  simp only [rowsOf, Option.bind_some, found]
  split
  · rfl
  · split <;> rfl

theorem gains_addSource (sound : l.Sound) (s : Source) (below : l.sources.last ≠ Int64.maxValue) :
    GainsRow .source (Kept.row (s.kept (l.sources.last + 1))) (some l.database)
      (some (l.addSource s).database) := by
  have written := l.withTable_source (l.sources.add (s.kept (l.sources.last + 1)))
  rw [addSource, ← written]
  exact GainsRow.of_add rfl rfl
    (sound.sources.get?_next below)

theorem gains_addObservation {o : Observation} {id : Int64}
    (accepted : l.refusal o id = none) :
    GainsRow .observation (Kept.row (o.kept id)) (some l.database)
      (some (l.addObservation o id).database) := by
  have written := l.withTable_observation (l.observations.add (o.kept id))
  rw [addObservation, ← written]
  exact GainsRow.of_add rfl rfl (refusal_eq_none_iff.1 accepted).2.2.1

end Ledger

end ObsCatalog
