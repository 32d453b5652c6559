import ObsCatalog.Proofs.Sql.Table
import ObsCatalog.Sql.Database

/-! Statements on databases.

A statement that changes a database first finds its table and checks the names that it is
given. Past these checks it comes to a change of one table, which is kept if every
reference still leads to a row.
-/

set_option autoImplicit false

namespace ObsCatalog.Sql

/-- Steps one after the other succeed only if each of them does. -/
theorem ok_of_bind {ε α β : Type} {x : Except ε α} {k : α → Except ε β} {b : β}
    (done : x >>= k = .ok b) : ∃ a, x = .ok a ∧ k a = .ok b := by
  cases x with
  | error fault => cases done
  | ok a => exact ⟨a, rfl, done⟩

namespace Database

theorem table_eq_ok_iff {db : Database} {name : String} {t : Table} :
    db.table name = .ok t ↔ db.table? name = some t := by
  unfold table
  cases db.table? name with
  | none => simp
  | some s => simp

theorem table_eq_error {db : Database} {name : String} (absent : db.table? name = none) :
    db.table name = .error (.noTable name) := by
  rw [table, absent]

theorem insert_eq {db : Database} {name : String} {names : List String} {cells : List Cell}
    {draws : Draws} {t : Table} (found : db.table name = .ok t)
    (targets : (names.find? fun column => !(t.hasColumn column || Table.isRowIdName column)) = none)
    (referenced : db.checkReferenced t = .ok ()) (enforced : Bool) :
    db.insert enforced name names cells draws =
      match t.insert names cells draws with
      | .error fault => .error fault
      | .ok (row, changed) =>
        if enforced && !(db.withTable changed).referencesHold changed row then .error .reference
        else .ok (row.id, db.withTable changed) := by
  simp only [insert, found, targets, bind, Except.bind]
  cases inserted : t.insert names cells draws with
  | error fault => cases enforced <;> simp only [referenced] <;> rfl
  | ok pair =>
    obtain ⟨row, changed⟩ := pair
    cases enforced with
    | false => rfl
    | true =>
      cases held : (db.withTable changed).referencesHold changed row <;>
        simp only [referenced, held] <;> rfl

theorem delete_eq {db : Database} {name : String} {t : Table} (found : db.table name = .ok t)
    (key : t.hasColumn "id") (referenced : db.checkReferenced t = .ok ()) (enforced : Bool)
    (id : Int64) :
    db.delete enforced name id =
      if t.hasRow id then
        if enforced && (db.withTable (t.removeRow id)).isReferred name id then .error .reference
        else .ok (1, db.withTable (t.removeRow id))
      else .ok (0, db) := by
  have checked (statement : String) (offset : Nat) : checkKey t "id" statement offset = .ok () := by
    rw [checkKey, if_pos key]
  unfold delete
  rw [found]
  cases present : t.hasRow id with
  | false => cases enforced <;> simp only [bind, Except.bind, checked, referenced, present] <;> rfl
  | true =>
    cases enforced with
    | false =>
      simp only [bind, Except.bind, checked, present]
      rfl
    | true =>
      cases referred : (db.withTable (t.removeRow id)).isReferred name id <;>
        simp only [bind, Except.bind, checked, referenced, present, referred] <;> rfl

theorem table?_withTable_of_ne (db : Database) {t : Table} {name : String}
    (other : t.name ≠ name) : (db.withTable t).table? name = db.table? name := by
  have kept (s : Table) : ((if s.name = t.name then t else s).name = name) = (s.name = name) := by
    split
    · next same => rw [same]
    · rfl
  simp only [table?, withTable, List.find?_map, Function.comp_def, kept]
  cases found : db.tables.find? fun s => decide (s.name = name) with
  | none => rfl
  | some s =>
    have named : s.name = name := by simpa using List.find?_some found
    have differs : s.name ≠ t.name := fun same => other (same.symm.trans named)
    simp [differs]

theorem table?_withTable_self {db : Database} {s t : Table} (found : db.table? t.name = some s) :
    (db.withTable t).table? t.name = some t := by
  have kept (s : Table) : ((if s.name = t.name then t else s).name = t.name) = (s.name = t.name) := by
    split
    · next same => rw [same]
    · rfl
  have named : s.name = t.name := by simpa using List.find?_some found
  unfold table? at found
  simp only [table?, withTable, List.find?_map, Function.comp_def, kept, found]
  simp [named]

theorem table?_createTable_of_some {db : Database} {name : String} {s : Table}
    (found : db.table? name = some s) (t : Table) : (db.createTable t).table? name = some s := by
  unfold createTable
  split
  · exact found
  · unfold table? at found ⊢
    rw [List.find?_append, found]
    rfl

theorem name_of_table {db : Database} {name : String} {t : Table}
    (found : db.table name = .ok t) : t.name = name := by
  have known := List.find?_some (table_eq_ok_iff.1 found)
  simpa using known

theorem table_name {db : Database} {name : String} {t : Table}
    (found : db.table name = .ok t) : db.table t.name = .ok t := by
  rwa [name_of_table found]

theorem name_of_insert {t changed : Table} {names : List String} {cells : List Cell}
    {draws : Draws} {row : StoredRow}
    (inserted : t.insert names cells draws = .ok (row, changed)) :
    changed.name = t.name := by
  rw [Table.insert_eq rfl] at inserted
  split at inserted
  · cases inserted
  · split at inserted
    · cases inserted
    · next added =>
      cases inserted
      rw [Table.insertRow_eq] at added
      split at added
      · cases added
      · split at added
        · cases added
        · cases added
          rfl

theorem table?_of_insert {db next : Database} {enforced : Bool} {name other : String}
    {names : List String} {cells : List Cell} {draws : Draws} {id : Int64}
    (inserted : db.insert enforced name names cells draws = .ok (id, next))
    (differs : name ≠ other) :
    next.table? other = db.table? other := by
  unfold insert at inserted
  obtain ⟨t, found, inserted⟩ := ok_of_bind inserted
  have own : t.name = name := name_of_table found
  have written {row : StoredRow} {changed : Table}
      (added : t.insert names cells draws = .ok (row, changed))
      (same : next = db.withTable changed) : next.table? other = db.table? other := by
    rw [same]
    exact table?_withTable_of_ne db (by rw [name_of_insert added, own]; exact differs)
  split at inserted
  · cases inserted
  · cases enforced with
    | false =>
      obtain ⟨⟨row, changed⟩, added, inserted⟩ := ok_of_bind inserted
      cases inserted
      exact written added rfl
    | true =>
      simp only [↓reduceIte] at inserted
      obtain ⟨-, -, inserted⟩ := ok_of_bind inserted
      obtain ⟨⟨row, changed⟩, added, inserted⟩ := ok_of_bind inserted
      dsimp only at inserted
      split at inserted
      · cases inserted
      · cases inserted
        exact written added rfl

end Database

end ObsCatalog.Sql
