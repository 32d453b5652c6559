import ObsCatalog.Sql.Table
import Mathlib.Data.List.Perm.Basic
import Mathlib.Order.Basic

/-! Rows and their ids.

Rows stand in strictly ascending order of their ids, and adding a row keeps them so. The
next id of a table with a sequence is one more than the sequence; that of a table without
one is at least an id that no row has.
-/

set_option autoImplicit false

namespace ObsCatalog.Sql.Table

/-- Rows in the order of their ids, each id once. -/
def Ordered (rows : List StoredRow) : Prop := rows.Pairwise fun a b => a.id < b.id

theorem Ordered.insertOrdered {r : StoredRow} {rows : List StoredRow} (ordered : Ordered rows)
    (fresh : ∀ s ∈ rows, s.id ≠ r.id) : Ordered (insertOrdered r rows) := by
  induction rows with
  | nil => exact List.pairwise_singleton _ _
  | cons s rest ih =>
    obtain ⟨least, ordered⟩ := List.pairwise_cons.1 ordered
    rw [Table.insertOrdered]
    split
    · next first =>
      refine List.pairwise_cons.2 ⟨fun x member => ?_, List.pairwise_cons.2 ⟨least, ordered⟩⟩
      rcases List.mem_cons.1 member with rfl | member
      · exact first
      · exact Int64.lt_trans first (least x member)
    · next later =>
      have before : s.id < r.id := by
        have differs := fresh s List.mem_cons_self
        exact Int64.lt_of_le_of_ne (Int64.not_lt.1 later) differs
      refine List.pairwise_cons.2
        ⟨fun x member => ?_, ih ordered fun x member => fresh x (List.mem_cons_of_mem s member)⟩
      rcases mem_insertOrdered.1 member with rfl | member
      · exact before
      · exact least x member

theorem hasRow_iff {t : Table} {id : Int64} : t.hasRow id ↔ ∃ r ∈ t.rows, r.id = id := by
  simp [hasRow]

theorem hasRow_eq_false_iff {t : Table} {id : Int64} :
    t.hasRow id = false ↔ ∀ r ∈ t.rows, r.id ≠ id := by
  simp [hasRow]

theorem le_greatestId {t : Table} (ordered : Ordered t.rows) {greatest : Int64}
    (last : t.greatestId? = some greatest) {r : StoredRow} (member : r ∈ t.rows) :
    r.id ≤ greatest := by
  obtain ⟨final, found, rfl⟩ := Option.map_eq_some_iff.1 last
  obtain ⟨before, split⟩ := List.getLast?_eq_some_iff.1 found
  rw [Ordered, split, List.pairwise_append] at ordered
  rw [split] at member
  rcases List.mem_append.1 member with member | member
  · exact Int64.le_of_lt (ordered.2.2 r member final (by simp))
  · rw [List.mem_singleton.1 member]
    exact Int64.le_refl _

theorem greatestId_mem {t : Table} {greatest : Int64} (last : t.greatestId? = some greatest) :
    ∃ r ∈ t.rows, r.id = greatest := by
  obtain ⟨final, found, same⟩ := Option.map_eq_some_iff.1 last
  exact ⟨final, List.mem_of_getLast? found, same⟩

theorem rows_of_greatestId_none {t : Table} (none : t.greatestId? = none) : t.rows = [] := by
  simpa [greatestId?] using none

theorem toInt_add_one {n : Int64} (below : n ≠ Int64.maxValue) : (n + 1).toInt = n.toInt + 1 := by
  have bound := n.le_toInt
  have small : n.toInt < 2 ^ 63 - 1 := by
    have most := n.toInt_lt
    have differs : n.toInt ≠ Int64.maxValue.toInt := fun same => below (Int64.toInt.inj same)
    have greatest : Int64.maxValue.toInt = 2 ^ 63 - 1 := by decide
    omega
  have one : (1 : Int64).toInt = 1 := by decide
  rw [Int64.toInt_add, one, Int.bmod_eq_of_le (by omega) (by omega)]

theorem lt_add_one {n : Int64} (below : n ≠ Int64.maxValue) : n < n + 1 := by
  rw [Int64.lt_iff_toInt_lt, toInt_add_one below]
  omega

/-- The sequence of a table is never behind its rows, so it alone decides the next id. -/
theorem nextId_of_sequence {t : Table} {given : Int64} {draws : Draws}
    (sequence : t.sequence = some given)
    (behind : ∀ r ∈ t.rows, r.id ≤ given) :
    t.nextId draws = if given = Int64.maxValue then .error .full else .ok (given + 1) := by
  unfold nextId
  rw [sequence]
  cases greatest : t.greatestId? with
  | none => rfl
  | some n =>
    obtain ⟨r, member, rfl⟩ := greatestId_mem greatest
    have reached : (if r.id < given then given else r.id) = given := by
      split
      · rfl
      · next notLess => exact Int64.le_antisymm (behind r member) (Int64.not_lt.1 notLess)
    simp only [reached]

theorem freeId_fresh (t : Table) (draws : Draws) :
    match t.freeId draws with
    | .ok id => t.hasRow id = false
    | .error fault => fault = .full := by
  unfold freeId
  cases found : ((List.range 100).map draws.id).find? fun id => !t.hasRow id with
  | none => rfl
  | some id => simpa using List.find?_some found

/-- Without a sequence the next id is still one that no row has, and only a row with the
greatest id can leave none. -/
theorem nextId_of_none {t : Table} (ordered : Ordered t.rows) (sequence : t.sequence = none)
    (draws : Draws) :
    match t.nextId draws with
    | .ok id => t.hasRow id = false
    | .error fault => fault = .full ∧ t.hasRow Int64.maxValue := by
  unfold nextId
  rw [sequence]
  cases greatest : t.greatestId? with
  | none => simp [hasRow, rows_of_greatestId_none greatest]
  | some n =>
    -- After the greatest integer ids are drawn, and elsewhere there is the one after.
    by_cases most : n = Int64.maxValue
    · simp only [most, if_true]
      have free := t.freeId_fresh draws
      cases given : t.freeId draws with
      | ok id => simpa only [given] using free
      | error fault =>
        rw [given] at free
        exact ⟨free, hasRow_iff.2 (most ▸ greatestId_mem greatest)⟩
    · simp only [most, if_false]
      refine hasRow_eq_false_iff.2 fun r member => ?_
      exact Int64.ne_of_lt (Int64.lt_of_le_of_lt (le_greatestId ordered greatest member)
        (lt_add_one most))

theorem insertRow_eq (t : Table) (row : StoredRow) :
    t.insertRow row =
      match t.admits row with
      | .error fault => .error fault
      | .ok () =>
        if t.hasRow row.id then .error (.duplicateKey t.name t.key) else .ok (t.addRow row) := by
  unfold insertRow
  cases t.admits row with
  | error fault => rfl
  | ok _ => cases t.hasRow row.id <;> rfl

theorem insert_eq {t : Table} {names : List String} {cells : List Cell} {asked : Cell}
    {draws : Draws}
    (asks : t.asked names cells = asked) :
    t.insert names cells draws =
      match t.idFor asked draws with
      | .error fault => .error fault
      | .ok id =>
        match t.insertRow (t.rowFor id names cells) with
        | .error fault => .error fault
        | .ok changed => .ok (t.rowFor id names cells, changed) := by
  unfold insert
  rw [asks]
  cases t.idFor asked draws with
  | error fault => rfl
  | ok id =>
    simp only [bind, Except.bind]
    cases t.insertRow (t.rowFor id names cells) with
    | error fault => rfl
    | ok changed => rfl

end ObsCatalog.Sql.Table
