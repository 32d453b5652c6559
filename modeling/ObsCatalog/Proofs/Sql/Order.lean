import ObsCatalog.Proofs.Sql.Change
import ObsCatalog.Proofs.Sql.Table

/-! Order of rows.

Every statement keeps the rows of all tables in strictly ascending order of their ids.
-/

set_option autoImplicit false

namespace ObsCatalog.Sql

namespace Table

variable {t u : Table}

/-- Rows whose ids are those of other rows are in order if the others are. -/
theorem Ordered.of_ids {rows others : List StoredRow} (ordered : Ordered others)
    (same : rows.map (·.id) = others.map (·.id)) : Ordered rows := by
  have ids : (others.map (·.id)).Pairwise (· < ·) := List.pairwise_map.2 ordered
  rw [← same] at ids
  exact List.pairwise_map.1 ids

theorem Ordered.removeRow (ordered : Ordered t.rows) (id : Int64) : Ordered (t.removeRow id).rows :=
  List.Pairwise.filter _ ordered

theorem Ordered.insert (ordered : Ordered t.rows) {names : List String} {cells : List Cell}
    {draws : Draws} {row : StoredRow} (done : t.insert names cells draws = .ok (row, u)) :
    Ordered u.rows := by
  obtain ⟨id, -, done⟩ := ok_of_bind done
  obtain ⟨changed, inserted, done⟩ := ok_of_bind done
  cases done
  rw [insertRow_eq] at inserted
  split at inserted
  · cases inserted
  split at inserted
  · cases inserted
  next absent =>
    cases inserted
    exact ordered.insertOrdered (hasRow_eq_false_iff.1 (Bool.eq_false_iff.2 absent))

theorem Ordered.update (ordered : Ordered t.rows) {id : Int64} {names : List String}
    {cells : List Cell} {count : Nat} (done : t.update id names cells = .ok (count, u)) :
    Ordered u.rows := by
  unfold Table.update at done
  split at done
  · cases done
    exact ordered
  next r found =>
    obtain ⟨_, -, done⟩ := ok_of_bind done
    cases done
    have key : r.id = id := by simpa using List.find?_some found
    refine ordered.of_ids ?_
    rw [List.map_map]
    refine List.map_congr_left fun s _ => ?_
    simp only [Function.comp_apply]
    split
    · next same => exact key.trans (beq_iff_eq.1 same).symm
    · rfl

theorem Ordered.addColumn (ordered : Ordered t.rows) {column : Column}
    (done : t.addColumn column = .ok u) : Ordered u.rows := by
  unfold Table.addColumn at done
  split at done
  · cases done
  split at done
  · cases done
  · cases done
    exact ordered.of_ids (by simp [Function.comp_def])

theorem Ordered.dropColumn (ordered : Ordered t.rows) {name : String}
    (done : t.dropColumn name = .ok u) : Ordered u.rows := by
  unfold Table.dropColumn at done
  split at done
  · cases done
  split at done
  · cases done
  · cases done
    exact ordered.of_ids (by simp [Function.comp_def])

theorem Ordered.renameColumn (ordered : Ordered t.rows) {name target : String}
    (done : t.renameColumn name target = .ok u) : Ordered u.rows := by
  unfold Table.renameColumn at done
  split at done
  · cases done
  simp only at done
  split at done
  · cases done
  · cases done
    exact ordered

theorem lasting_ordered : Lasting fun t => Ordered t.rows where
  removeRow id ordered := ordered.removeRow id
  insert ordered done := ordered.insert done
  update ordered done := ordered.update done
  addColumn ordered done := ordered.addColumn done
  dropColumn ordered done := ordered.dropColumn done
  renameColumn ordered done := ordered.renameColumn done

end Table

namespace Database

variable {db : Database} {t : Table} {name : String}

/-- The rows of all tables are in the order of their ids, each id once. -/
def Ordered (db : Database) : Prop := ∀ t ∈ db.tables, Table.Ordered t.rows

theorem Ordered.table (ordered : db.Ordered) (found : db.table name = .ok t) :
    Table.Ordered t.rows :=
  Everywhere.table ordered found

/-- Whatever statements are run on a new database, its rows are in order. -/
theorem ordered_of_changes (changes : Relation.ReflTransGen Changes .empty db) : db.Ordered := by
  apply everywhere_of_changes Table.lasting_ordered _ changes
  intro t none
  rw [none]
  exact .nil

end Database

end ObsCatalog.Sql
