import ObsCatalog.Proofs.Sql.Table
import Mathlib.Data.List.Pairwise
import Mathlib.Tactic.ByContra

/-! Records under ids.

A shelf is what a table holds before its records are encoded as rows: the records in the
order of their ids, and the greatest id that any of them has ever had. Adding and removing
a record on the shelf is adding and removing its row in the table.
-/

set_option autoImplicit false

namespace ObsCatalog

/-- Records that are kept as rows. -/
class Kept (α : Type) where
  key : α → Int64
  cells : α → List Sql.Cell

namespace Kept

variable {α : Type} [Kept α]

def row (a : α) : Sql.StoredRow := ⟨key a, cells a⟩

@[simp] theorem id_row (a : α) : (row a).id = key a := rfl

end Kept

structure Shelf (α : Type) where
  entries : List α
  /-- The greatest id that has been given. -/
  last : Int64

namespace Shelf

open Kept Sql

variable {α : Type} [Kept α]

def empty : Shelf α := ⟨[], 0⟩

def get? (s : Shelf α) (id : Int64) : Option α := s.entries.find? fun a => key a == id

/-- Put an entry in its place among entries in the order of their ids. -/
def insertOrdered (a : α) : List α → List α
  | [] => [a]
  | b :: rest => if key a < key b then a :: b :: rest else b :: insertOrdered a rest

def add (s : Shelf α) (a : α) : Shelf α :=
  ⟨insertOrdered a s.entries, if s.last < key a then key a else s.last⟩

def remove (s : Shelf α) (id : Int64) : Shelf α :=
  { s with entries := s.entries.filter fun a => key a != id }

/-- The table that holds the entries; a table without a sequence does not keep the
greatest id. -/
def table (s : Shelf α) (blank : Sql.Table) : Sql.Table :=
  { blank with rows := s.entries.map row, sequence := blank.sequence.map fun _ => s.last }

/-- Entries stand in the order of their ids, and the greatest id is never behind. -/
structure Sound (s : Shelf α) : Prop where
  ordered : s.entries.Pairwise fun a b => key a < key b
  le_last : ∀ a ∈ s.entries, key a ≤ s.last
  nonneg : 0 ≤ s.last

theorem sound_empty : (empty : Shelf α).Sound := ⟨.nil, by simp [empty], Int64.le_refl 0⟩

variable {s : Shelf α}

theorem map_insertOrdered (a : α) (entries : List α) :
    (insertOrdered a entries).map row = Table.insertOrdered (row a) (entries.map row) := by
  induction entries with
  | nil => rfl
  | cons b rest ih =>
    by_cases first : key a < key b
    · have rowFirst : (row a).id < (row b).id := first
      simp only [insertOrdered, Table.insertOrdered, List.map_cons, if_pos first, if_pos rowFirst]
    · have rowLater : ¬ (row a).id < (row b).id := first
      simp only [insertOrdered, Table.insertOrdered, List.map_cons, if_neg first, if_neg rowLater,
        ih]

theorem insertOrdered_perm (a : α) (entries : List α) :
    (insertOrdered a entries).Perm (a :: entries) := by
  induction entries with
  | nil => exact .refl _
  | cons b rest ih =>
    rw [insertOrdered]
    split
    · exact .refl _
    · exact (ih.cons b).trans (.swap a b rest)

theorem entries_add (s : Shelf α) (a : α) : (s.add a).entries.Perm (a :: s.entries) :=
  insertOrdered_perm a s.entries

theorem le_last_add (s : Shelf α) (a : α) : s.last ≤ (s.add a).last := by
  simp only [add]
  split
  · next later => exact Int64.le_of_lt later
  · exact Int64.le_refl _

theorem key_le_last_add (s : Shelf α) (a : α) : key a ≤ (s.add a).last := by
  simp only [add]
  split
  · exact Int64.le_refl _
  · next earlier => exact Int64.not_lt.1 earlier

theorem get?_eq_none_iff {id : Int64} : s.get? id = none ↔ ∀ a ∈ s.entries, key a ≠ id := by
  simp [get?]

theorem isSome_get?_iff {id : Int64} : (s.get? id).isSome ↔ ∃ a ∈ s.entries, key a = id := by
  simp [get?]

theorem isSome_get?_add {id : Int64} (found : (s.get? id).isSome) (a : α) :
    ((s.add a).get? id).isSome := by
  obtain ⟨b, entry, same⟩ := isSome_get?_iff.1 found
  exact isSome_get?_iff.2 ⟨b, (s.entries_add a).mem_iff.2 (List.mem_cons_of_mem a entry), same⟩

theorem isSome_get?_remove {id other : Int64} (found : (s.get? id).isSome) (differs : id ≠ other) :
    ((s.remove other).get? id).isSome := by
  obtain ⟨b, entry, rfl⟩ := isSome_get?_iff.1 found
  exact isSome_get?_iff.2 ⟨b, List.mem_filter.2 ⟨entry, by simpa using differs⟩, rfl⟩

theorem Sound.ordered_rows (sound : s.Sound) : Table.Ordered (s.entries.map row) :=
  List.pairwise_map.2 sound.ordered

theorem Sound.add (sound : s.Sound) {a : α} (fresh : s.get? (key a) = none) : (s.add a).Sound where
  ordered := by
    have rows : Table.Ordered ((insertOrdered a s.entries).map row) := by
      rw [map_insertOrdered]
      refine sound.ordered_rows.insertOrdered fun r member => ?_
      obtain ⟨b, entry, rfl⟩ := List.mem_map.1 member
      exact get?_eq_none_iff.1 fresh b entry
    unfold Table.Ordered at rows
    rw [List.pairwise_map] at rows
    exact rows
  le_last := fun b member => by
    rcases List.mem_cons.1 ((s.entries_add a).mem_iff.1 member) with rfl | member
    · exact s.key_le_last_add b
    · exact Int64.le_trans (sound.le_last b member) (s.le_last_add a)
  nonneg := Int64.le_trans sound.nonneg (s.le_last_add a)

theorem Sound.remove (sound : s.Sound) (id : Int64) : (s.remove id).Sound where
  ordered := sound.ordered.filter _
  le_last := fun a member => sound.le_last a (List.mem_filter.1 member).1
  nonneg := sound.nonneg

theorem Sound.eq_of_key (sound : s.Sound) {a b : α} (left : a ∈ s.entries) (right : b ∈ s.entries)
    (same : key a = key b) : a = b := by
  have symmetric : Std.Symm fun x y : α => key x ≠ key y := ⟨fun _ _ => Ne.symm⟩
  have apart : s.entries.Pairwise fun x y => key x ≠ key y := sound.ordered.imp Int64.ne_of_lt
  by_contra differs
  exact apart.forall left right differs same

theorem Sound.get?_eq_some_iff (sound : s.Sound) {id : Int64} {a : α} :
    s.get? id = some a ↔ a ∈ s.entries ∧ key a = id := by
  constructor
  · intro found
    exact ⟨List.mem_of_find?_eq_some found, by simpa using List.find?_some found⟩
  · rintro ⟨member, rfl⟩
    cases found : s.get? (key a) with
    | none => exact absurd rfl (get?_eq_none_iff.1 found a member)
    | some b =>
      have same : key b = key a := by simpa using List.find?_some found
      have other := List.mem_of_find?_eq_some found
      exact congrArg some (sound.eq_of_key other member same)

/-- The next id of a shelf whose table has a sequence is one that no entry has. -/
theorem Sound.get?_next (sound : s.Sound) (below : s.last ≠ Int64.maxValue) :
    s.get? (s.last + 1) = none :=
  get?_eq_none_iff.2 fun a member =>
    Int64.ne_of_lt (Int64.lt_of_le_of_lt (sound.le_last a member) (Table.lt_add_one below))

variable {blank : Sql.Table}

@[simp] theorem hasColumn_table (s : Shelf α) (name : String) :
    (s.table blank).hasColumn name = blank.hasColumn name := rfl

@[simp] theorem asked_table (s : Shelf α) (names : List String) (cells : List Cell) :
    (s.table blank).asked names cells = blank.asked names cells := rfl

@[simp] theorem rowFor_table (s : Shelf α) (id : Int64) (names : List String)
    (cells : List Cell) : (s.table blank).rowFor id names cells = blank.rowFor id names cells := rfl

theorem table_add (s : Shelf α) (a : α) :
    (s.add a).table blank = (s.table blank).addRow (row a) := by
  simp only [table, add, Table.addRow, map_insertOrdered, Option.map_map]
  rfl

theorem table_remove (s : Shelf α) (id : Int64) :
    (s.remove id).table blank = (s.table blank).removeRow id := by
  simp only [table, remove, Table.removeRow, List.filter_map, Function.comp_def, id_row]

theorem hasRow_table (s : Shelf α) (id : Int64) :
    (s.table blank).hasRow id = (s.get? id).isSome := by
  rw [get?, List.isSome_find?]
  simp [table, Table.hasRow, List.any_map, Function.comp_def]

/-- An id that has been given when something is added is that of a row. -/
theorem given_add (s : Shelf α) (a : α) :
    (s.add a).last = s.last ∨ ((s.add a).table blank).hasRow (s.add a).last := by
  have here : ((s.add a).table blank).hasRow (key a) := by
    rw [hasRow_table]
    exact isSome_get?_iff.2 ⟨a, (s.entries_add a).mem_iff.2 List.mem_cons_self, rfl⟩
  by_cases later : s.last < key a
  · have given : (s.add a).last = key a := if_pos later
    exact .inr (given ▸ here)
  · exact .inl (if_neg later)

theorem rows_with_id (s : Shelf α) (id : Int64) :
    ((s.table blank).rows.filter (·.id == id)).take 1 = ((s.get? id).map row).toList := by
  rw [List.take_one, List.head?_filter]
  simp only [table, List.find?_map, get?]
  rfl

theorem Sound.nextId_of_sequence (sound : s.Sound) (sequence : blank.sequence ≠ none)
    (draws : Sql.Draws) : (s.table blank).nextId draws =
      if s.last = Int64.maxValue then .error .full else .ok (s.last + 1) := by
  obtain ⟨given, some⟩ := Option.ne_none_iff_exists'.1 sequence
  refine Table.nextId_of_sequence (by simp [table, some]) fun r member => ?_
  obtain ⟨a, entry, rfl⟩ := List.mem_map.1 member
  exact sound.le_last a entry

end Shelf

end ObsCatalog
