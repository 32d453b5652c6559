import ObsCatalog.Proofs.Sql.Database
import Mathlib.Logic.Relation

/-! What every statement keeps.

A statement works on single tables: it adds a row to one, removes a row or replaces its cells, or
changes the columns. What holds of new tables and outlives each of these holds of all tables of a
database, whatever statements it has come from.
-/

set_option autoImplicit false

namespace ObsCatalog.Sql

/-- A property of tables that outlives every change of a table. -/
structure Table.Lasting (P : Table → Prop) : Prop where
  removeRow {t : Table} (id : Int64) : P t → P (t.removeRow id)
  insert {t u : Table} {names : List String} {cells : List Cell} {draws : Draws}
    {row : StoredRow} : P t → t.insert names cells draws = .ok (row, u) → P u
  update {t u : Table} {id : Int64} {names : List String} {cells : List Cell} {count : Nat} :
    P t → t.update id names cells = .ok (count, u) → P u
  addColumn {t u : Table} {column : Column} : P t → t.addColumn column = .ok u → P u
  dropColumn {t u : Table} {name : String} : P t → t.dropColumn name = .ok u → P u
  renameColumn {t u : Table} {name target : String} : P t → t.renameColumn name target = .ok u → P u

namespace Database

variable {P : Table → Prop} {db next : Database} {t : Table} {name : String}

def Everywhere (P : Table → Prop) (db : Database) : Prop := ∀ t ∈ db.tables, P t

theorem everywhere_empty : Everywhere P .empty := fun _ none => nomatch none

theorem Everywhere.table (every : db.Everywhere P) (found : db.table name = .ok t) : P t :=
  every t (List.mem_of_find?_eq_some (table_eq_ok_iff.1 found))

theorem Everywhere.withTable (every : db.Everywhere P) (holds : P t) :
    (db.withTable t).Everywhere P := by
  intro u member
  obtain ⟨s, known, rfl⟩ := List.mem_map.1 member
  split
  · exact holds
  · exact every s known

theorem Everywhere.createTable (every : db.Everywhere P) (holds : P t) :
    (db.createTable t).Everywhere P := by
  unfold Database.createTable
  split
  · exact every
  · exact List.forall_mem_append.2 ⟨every, List.forall_mem_singleton.2 holds⟩

theorem Everywhere.insert (every : db.Everywhere P) (lasting : Table.Lasting P) {enforced : Bool}
    {names : List String} {cells : List Cell} {draws : Draws} {id : Int64}
    (done : db.insert enforced name names cells draws = .ok (id, next)) : next.Everywhere P := by
  obtain ⟨t, found, done⟩ := ok_of_bind done
  split at done
  · cases done
  have inserts {row : StoredRow} {changed : Table} (inserted : t.insert names cells draws =
      .ok (row, changed)) : (db.withTable changed).Everywhere P :=
    every.withTable (lasting.insert (every.table found) inserted)
  -- References are checked or not, before the row is added and after.
  split at done
  · obtain ⟨_, -, done⟩ := ok_of_bind done
    obtain ⟨⟨row, changed⟩, inserted, done⟩ := ok_of_bind done
    simp only at done
    split at done
    · cases done
    · cases done
      exact inserts inserted
  · obtain ⟨⟨row, changed⟩, inserted, done⟩ := ok_of_bind done
    simp only at done
    split at done
    · cases done
    · cases done
      exact inserts inserted

theorem Everywhere.replace (every : db.Everywhere P) (lasting : Table.Lasting P) {enforced : Bool}
    {names : List String} {cells : List Cell} {draws : Draws} {asked id : Int64}
    (done : db.replace enforced name asked names cells draws = .ok (id, next)) :
    next.Everywhere P := by
  obtain ⟨t, found, done⟩ := ok_of_bind done
  exact (every.withTable (lasting.removeRow asked (every.table found))).insert lasting done

theorem Everywhere.delete (every : db.Everywhere P) (lasting : Table.Lasting P) {enforced : Bool}
    {id : Int64} {count : Nat} (done : db.delete enforced name id = .ok (count, next)) :
    next.Everywhere P := by
  obtain ⟨t, found, done⟩ := ok_of_bind done
  have removed := every.withTable (lasting.removeRow id (every.table found))
  obtain ⟨_, -, done⟩ := ok_of_bind done
  cases present : t.hasRow id with
  | false =>
    simp only [present, Bool.false_eq_true, if_false] at done
    split at done
    · obtain ⟨_, -, done⟩ := ok_of_bind done
      cases done
      exact every
    · cases done
      exact every
  | true =>
    simp only [present, if_true] at done
    split at done
    · obtain ⟨_, -, done⟩ := ok_of_bind done
      split at done
      · cases done
      · cases done
        exact removed
    · split at done
      · cases done
      · cases done
        exact removed

theorem Everywhere.update (every : db.Everywhere P) (lasting : Table.Lasting P)
    {names : List String} {cells : List Cell} {id : Int64} {count : Nat}
    (done : db.update name id names cells = .ok (count, next)) : next.Everywhere P := by
  obtain ⟨t, found, done⟩ := ok_of_bind done
  split at done
  · cases done
  obtain ⟨_, -, done⟩ := ok_of_bind done
  obtain ⟨⟨changes, changed⟩, updated, done⟩ := ok_of_bind done
  cases done
  exact every.withTable (lasting.update (every.table found) updated)

theorem Everywhere.alter (every : db.Everywhere P) {change : Table → Except Fault Table}
    (keeps : ∀ {t u}, P t → change t = .ok u → P u)
    (done : (do pure (db.withTable (← change (← db.table name)))) = .ok next) :
    next.Everywhere P := by
  obtain ⟨t, found, done⟩ := ok_of_bind done
  obtain ⟨u, changed, done⟩ := ok_of_bind done
  cases done
  exact every.withTable (keeps (every.table found) changed)

theorem Everywhere.dropTable (every : db.Everywhere P) {enforced : Bool}
    (done : db.dropTable enforced name = .ok next) : next.Everywhere P := by
  obtain ⟨t, -, done⟩ := ok_of_bind done
  simp only at done
  split at done
  · cases done
  · cases done
    exact fun u member => every u (List.mem_filter.1 member).1

inductive Changes (db next : Database) : Prop where
  | create (t : Table) : t.rows = [] → next = db.createTable t → Changes db next
  | insert (enforced : Bool) (name : String) (names : List String) (cells : List Cell)
      (draws : Draws) (id : Int64) :
      db.insert enforced name names cells draws = .ok (id, next) → Changes db next
  | replace (enforced : Bool) (name : String) (asked : Int64) (names : List String)
      (cells : List Cell) (draws : Draws) (id : Int64) :
      db.replace enforced name asked names cells draws = .ok (id, next) → Changes db next
  | delete (enforced : Bool) (name : String) (id : Int64) (count : Nat) :
      db.delete enforced name id = .ok (count, next) → Changes db next
  | update (name : String) (id : Int64) (names : List String) (cells : List Cell) (count : Nat) :
      db.update name id names cells = .ok (count, next) → Changes db next
  | addColumn (name column : String) (affinity : Affinity) (required : Bool) (fill : Cell) :
      db.addColumn name column affinity required fill = .ok next → Changes db next
  | dropColumn (name column : String) : db.dropColumn name column = .ok next → Changes db next
  | renameColumn (name column target : String) :
      db.renameColumn name column target = .ok next → Changes db next
  | dropTable (enforced : Bool) (name : String) :
      db.dropTable enforced name = .ok next → Changes db next

theorem Everywhere.changes (every : db.Everywhere P) (lasting : Table.Lasting P)
    (new : ∀ t : Table, t.rows = [] → P t) (changes : Changes db next) : next.Everywhere P := by
  cases changes with
  | create t none made =>
    rw [made]
    exact every.createTable (new t none)
  | insert _ _ _ _ _ _ done => exact every.insert lasting done
  | replace _ _ _ _ _ _ _ done => exact every.replace lasting done
  | delete _ _ _ _ done => exact every.delete lasting done
  | update _ _ _ _ _ done => exact every.update lasting done
  | addColumn _ _ _ _ _ done => exact every.alter lasting.addColumn done
  | dropColumn _ _ done => exact every.alter lasting.dropColumn done
  | renameColumn _ _ _ done => exact every.alter lasting.renameColumn done
  | dropTable _ _ done => exact every.dropTable done

/-- Whatever statements are run on a new database, what lasts holds of all its tables. -/
theorem everywhere_of_changes (lasting : Table.Lasting P) (new : ∀ t : Table, t.rows = [] → P t)
    (changes : Relation.ReflTransGen Changes .empty db) : db.Everywhere P := by
  induction changes with
  | refl => exact everywhere_empty
  | tail _ change ih => exact ih.changes lasting new change

end Database

end ObsCatalog.Sql
