import ObsCatalog.Proofs.Catalog.Mapping
import ObsCatalog.Proofs.Catalog.Operation
import ObsCatalog.Proofs.Sql.Column

/-! Records of wider tables.

Columns that are added to the tables of a catalog come after those of the records, and no field of
a record is named for them. So records are looked up and listed as before.
-/

set_option autoImplicit false

namespace ObsCatalog

open Sql (Cell Engine Mention Select)

def Table.fields : Table → List Field
  | .source => Source.fields
  | .observation => Observation.fields

namespace Sql

/-- None of the further columns is one that a field of a record is named for. -/
def Table.Leaves (s : Table) (t : ObsCatalog.Table) (columns : List Column) : Prop :=
  ∀ f ∈ t.fields, (s.widened columns).hasColumn f.column → s.hasColumn f.column

namespace Database

variable {db wider : Database}

def hasColumn (db : Database) (table column : String) : Bool :=
  (db.table? table).any (·.hasColumn column)

/-- Columns are added to tables, and none that a field of a record is named for. A table that has
columns for all fields takes no further ones of their names. -/
structure Grows (db wider : Database) : Prop where
  added : Relation.ReflTransGen AddsColumn db wider
  others : ∀ t : ObsCatalog.Table, ∀ f ∈ t.fields,
    wider.hasColumn t.name f.column → db.hasColumn t.name f.column

/-- A table of records is missing before and after, or has grown by columns of other names. -/
theorem Grows.table (grows : db.Grows wider) (t : ObsCatalog.Table) :
    (db.table? t.name = none ∧ wider.table? t.name = none) ∨
      ∃ (s : Table) (columns : List Column), db.table? t.name = some s ∧
        wider.table? t.name = some (s.widened columns) ∧ s.Leaves t columns ∧
          ∀ f ∈ t.fields, f.column ∉ columns.map (·.name) := by
  have related := table?_of_addsColumns grows.added t.name
  have others := grows.others t
  unfold hasColumn at others
  generalize db.table? t.name = before at related others ⊢
  generalize wider.table? t.name = after at related others ⊢
  cases related with
  | none => exact .inl ⟨rfl, rfl⟩
  | some widens =>
    obtain ⟨columns, fresh, rfl⟩ := widens
    refine .inr ⟨_, columns, rfl, rfl, others, fun f field named => ?_⟩
    obtain ⟨column, member, same⟩ := List.mem_map.1 named
    have known := others f field
    simp only [Option.any_some, Table.hasColumn_widened] at known
    -- A column is not added under a name that the table has already.
    have reached : columns.any fun column => sameName f.column column.name :=
      List.any_eq_true.2 ⟨column, member, same ▸ beq_self_eq_true _⟩
    have absent := fresh column member
    rw [same, known (by rw [reached, Bool.or_true])] at absent
    cases absent

end Database

/-- The selection is one of rows of a table, all its names are those of fields, and it does not
fail on any row. -/
structure Select.Keeps (q : Select) (t : ObsCatalog.Table) : Prop where
  table : q.table = t.name
  condition {engine : Engine} {db wider : Database} {s : Table} {columns : List Column}
    {read : Condition.Read} :
    s.Leaves t columns → q.read = .ok read →
      q.resolve engine wider (s.widened columns) read.expr = q.resolve engine db s read.expr
  settled {engine : Engine} {db : Database} {s : Table} {read : Condition.Read} {e : Term} :
    q.read = .ok read → q.resolve engine db s read.expr = .ok e → e.IsSettled
  order {s : Table} {columns : List Column} : s.Leaves t columns →
    q.order (s.widened columns) = q.order s

theorem Select.run_of_absent {q : Select} {db : Database} {engine : Engine}
    (absent : db.table? q.table = none) (values : List Cell) :
    q.run db values engine = q.read.bind fun _ => .error (.noTable q.table) := by
  unfold run
  cases q.read with
  | error fault => rfl
  | ok read => simp only [bind, Except.bind, Database.table_eq_error absent]

theorem Select.Keeps.run {q : Select} {t : ObsCatalog.Table} (keeps : q.Keeps t)
    {engine : Engine} {db wider : Database} (filled : db.Everywhere Table.Filled)
    (grows : db.Grows wider) (values : List Cell) :
    ∃ columns : List Column, (∀ f ∈ t.fields, f.column ∉ columns.map (·.name)) ∧
      q.run wider values engine = (q.run db values engine).map (·.padded columns) := by
  have table := keeps.table
  rcases grows.table t with ⟨absent, still⟩ | ⟨s, columns, found, wide, leaves, others⟩
  · rw [← table] at absent still
    refine ⟨[], fun _ _ => List.not_mem_nil, ?_⟩
    rw [run_of_absent absent, run_of_absent still]
    cases q.read <;> rfl
  · rw [← table] at found wide
    have found := Database.table_eq_ok_iff.2 found
    exact ⟨columns, others, run_widened (filled.table found) found
      (Database.table_eq_ok_iff.2 wide) (fun _ => keeps.condition leaves)
      (fun _ _ => keeps.settled) (keeps.order leaves) values⟩

end Sql

section Equality

variable {engine : Engine} {q : Select} {db wider : Sql.Database} {s : Sql.Table}
  {columns : List Sql.Column} {column : String}

theorem Sql.Select.resolve_widened
    (kept : (s.widened columns).hasColumn column → s.hasColumn column) :
    q.resolve engine wider (s.widened columns)
        (.compare .equal (.column (.column none column false 0)) (.parameter 1)) =
      q.resolve engine db s
        (.compare .equal (.column (.column none column false 0)) (.parameter 1)) := by
  simp only [resolve, Expr.resolved, Expr.resolvedList, resolveMention, Mention.resolve,
    Mention.columnOf_widened kept]

theorem Sql.Select.settled_equality {e : Sql.Term} (resolved : q.resolve engine db s
      (.compare .equal (.column (.column none column false 0)) (.parameter 1)) = .ok e) :
    e.IsSettled := by
  obtain ⟨known, -⟩ := resolve_eq_ok_iff.1 resolved
  obtain ⟨_, operands, known⟩ := Sql.ok_of_bind known
  obtain ⟨x, first, operands⟩ := Sql.ok_of_bind operands
  obtain ⟨_, second, operands⟩ := Sql.ok_of_bind operands
  cases second
  cases operands
  cases known
  have first : q.resolveMention s (.column none column false 0) = .ok x := first
  unfold resolveMention at first
  split at first
  · next same =>
    cases first
    rcases Mention.of_resolve same with ⟨c, -, rfl⟩ | ⟨c, rfl⟩ <;>
      exact fun _ => List.forall_mem_singleton.2 ⟨_, rfl⟩
  · cases first

end Equality

namespace Handle

theorem keeps_listing (t : Table) : (listing t none).Keeps t where
  table := rfl
  condition _ known := by
    cases known
    rfl
  settled known resolved := by
    cases known
    cases resolved
    exact fun _ => List.forall_mem_singleton.2 ⟨_, rfl⟩
  order _ := rfl

theorem keeps_lookingUp (t : Table) : (lookingUp t).Keeps t where
  table := rfl
  condition kept known := by
    simp only [Select.read, lookingUp, Sql.read_id] at known
    cases known
    cases t with
    | source => exact Select.resolve_widened (kept ⟨"id", .integer⟩ List.mem_cons_self)
    | observation => exact Select.resolve_widened (kept ⟨"id", .integer⟩ List.mem_cons_self)
  settled known resolved := by
    simp only [Select.read, lookingUp, Sql.read_id] at known
    cases known
    exact Select.settled_equality resolved
  order _ := rfl

theorem keeps_findingSource : findingSource.Keeps .source where
  table := rfl
  condition kept known := by
    simp only [Select.read, findingSource, Sql.read_authenticator] at known
    cases known
    exact Select.resolve_widened (kept ⟨"authenticator", .text⟩ (by decide))
  settled known resolved := by
    simp only [Select.read, findingSource, Sql.read_authenticator] at known
    cases known
    exact Select.settled_equality resolved
  order kept := by
    have id := Mention.columnOf_widened (kept ⟨"id", .integer⟩ List.mem_cons_self)
    simp only [Select.order, findingSource, id]

end Handle

namespace Row

variable {r : Row} {columns : List Sql.Column} {fields : List Field}

def widened (columns : List Sql.Column) (r : Row) : Row :=
  ⟨r.table, r.columns ++ columns.map (·.name), r.values ++ columns.map (·.filled.value)⟩

theorem gains_widened (whole : r.columns.length = r.values.length)
    (others : ∀ f ∈ fields, f.column ∉ columns.map (·.name)) :
    Gains fields r.entries (r.widened columns).entries := by
  have split : (r.widened columns).entries =
      r.entries ++ (columns.map (·.name)).zip (columns.map (·.filled.value)) :=
    List.zip_append whole
  rw [split]
  apply Gains.append
  intro e member f field same
  exact others f field (same ▸ (List.of_mem_zip member).1)

end Row

namespace Handle

variable {engine : Engine} {h : Handle} {t : Table} {q : Select} {wider : Sql.Database}

def onto (h : Handle) (db : Sql.Database) : Handle :=
  { h with connection := { h.connection with database := db } }

/-- Rows are selected as before, with values below further columns. -/
theorem select_onto (keeps : q.Keeps t)
    (filled : h.connection.database.Everywhere Sql.Table.Filled)
    (grows : h.connection.database.Grows wider) (params : List Value) :
    ∃ columns : List Sql.Column, (∀ f ∈ t.fields, f.column ∉ columns.map (·.name)) ∧
      (select engine t q params (h.onto wider)).1 =
        (select engine t q params h).1.map (·.map (Row.widened columns)) := by
  obtain ⟨columns, others, same⟩ := keeps.run filled grows (params.map Cell.ofValue)
  refine ⟨columns, others, ?_⟩
  cases healthy : h.isPoisoned with
  | true =>
    rw [select_of_poisoned healthy, select_of_poisoned (h := h.onto wider) healthy]
    rfl
  | false =>
    cases found : q.run h.connection.database (params.map Cell.ofValue) engine with
    | error fault =>
      rw [found] at same
      rw [select_error t params healthy found, select_error (h := h.onto wider) t params healthy same]
      rfl
    | ok selected =>
      rw [found] at same
      rw [select_ok t params healthy found, select_ok (h := h.onto wider) t params healthy same]
      simp only [Except.map, Sql.Selected.padded, List.map_map]
      apply congrArg
      apply List.map_congr_left
      intro cells _
      simp [Sql.padded, Row.widened, Cell.value]

theorem whole_of_select {rows : List Row}
    (filled : h.connection.database.Everywhere Sql.Table.Filled) {params : List Value}
    (done : (select engine t q params h).1 = .ok rows) :
    ∀ r ∈ rows, r.table = t ∧ r.columns.length = r.values.length := by
  obtain ⟨-, selected, ran, rfl⟩ := select_of_ok done
  obtain ⟨s, found, known, stored, -, rfl⟩ := Select.rows_of_run ran
  intro r member
  simp only [List.map_map, List.mem_map, Function.comp_apply] at member
  obtain ⟨row, picked, rfl⟩ := member
  have whole := filled.table known row (stored row picked)
  simp [Sql.Table.columnNames, whole]

variable {α β : Type} {ofRow : Row → Except CatalogFault α} {fields : List Field}
  {Holds : Row → α → Prop}

theorem mapM_congr {f g : Row → Except CatalogFault α} {rows : List Row}
    (same : ∀ r ∈ rows, f r = g r) : rows.mapM f = rows.mapM g := by
  induction rows with
  | nil => rfl
  | cons r rows ih =>
    obtain ⟨first, others⟩ := List.forall_mem_cons.1 same
    rw [List.mapM_cons, List.mapM_cons, first, ih others]

theorem reading_fst (action : Action α) (read : α → Except CatalogFault β) (h : Handle) :
    (reading action read h).1 = (action h).1.bind read := by
  unfold reading
  rcases action h with ⟨_ | _, _⟩ <;> rfl

theorem reading_lookup_fst (t : Table) (id : Int64) (read : Row → Except CatalogFault β)
    (h : Handle) :
    (reading (lookup t id) (fun row => row.mapM read) h).1 =
      (select .standard t (lookingUp t) [.integer id] h).1.bind fun rows =>
        rows.head?.mapM read := by
  unfold reading lookup
  rcases select .standard t (lookingUp t) [.integer id] h with ⟨_ | _, _⟩ <;> rfl

/-- What is read of the selected rows is read as before, if each row is read alike. -/
theorem bind_onto (maps : Maps ofRow t.fields Holds) (keeps : q.Keeps t)
    (filled : h.connection.database.Everywhere Sql.Table.Filled)
    (grows : h.connection.database.Grows wider) {read : List Row → Except CatalogFault β}
    (alike : ∀ {rows : List Row} {columns : List Sql.Column},
      (∀ r ∈ rows, ofRow (r.widened columns) = ofRow r) →
        read (rows.map (Row.widened columns)) = read rows) (params : List Value) :
    (select engine t q params (h.onto wider)).1.bind read =
      (select engine t q params h).1.bind read := by
  obtain ⟨columns, others, same⟩ := select_onto keeps filled grows params
  rw [same]
  cases done : (select engine t q params h).1 with
  | error fault => rfl
  | ok rows =>
    have whole := whole_of_select filled done
    refine alike fun r member => ?_
    exact maps.gained rfl (Row.gains_widened (whole r member).2 others)

theorem mapM_onto (maps : Maps ofRow t.fields Holds) (keeps : q.Keeps t)
    (filled : h.connection.database.Everywhere Sql.Table.Filled)
    (grows : h.connection.database.Grows wider) (params : List Value) :
    (select engine t q params (h.onto wider)).1.bind (List.mapM ofRow) =
      (select engine t q params h).1.bind (List.mapM ofRow) := by
  refine bind_onto maps keeps filled grows (fun {rows columns} same => ?_) params
  rw [List.mapM_map]
  exact mapM_congr same

theorem head?_mapM_onto (maps : Maps ofRow t.fields Holds) (keeps : q.Keeps t)
    (filled : h.connection.database.Everywhere Sql.Table.Filled)
    (grows : h.connection.database.Grows wider) (params : List Value) :
    (select engine t q params (h.onto wider)).1.bind (fun rows => rows.head?.mapM ofRow) =
      (select engine t q params h).1.bind fun rows => rows.head?.mapM ofRow := by
  refine bind_onto maps keeps filled grows (fun {rows columns} same => ?_) params
  cases rows with
  | nil => rfl
  | cons r rows =>
    simp only [List.map_cons, List.head?_cons, Option.mapM_some, same r List.mem_cons_self]

structure SameRecords (h other : Handle) : Prop where
  getSource (id : Int64) : (getSource id other).1 = (getSource id h).1
  findSource (authenticator : String) :
    (findSource authenticator other).1 = (findSource authenticator h).1
  listSources (engine : Engine) :
    (listSources none engine other).1 = (listSources none engine h).1
  getObservation (id : Int64) : (getObservation id other).1 = (getObservation id h).1
  listObservations (engine : Engine) :
    (listObservations none engine other).1 = (listObservations none engine h).1

theorem sameRecords_onto (filled : h.connection.database.Everywhere Sql.Table.Filled)
    (grows : h.connection.database.Grows wider) : SameRecords h (h.onto wider) where
  getSource id := by
    unfold Handle.getSource
    rw [reading_lookup_fst, reading_lookup_fst]
    exact head?_mapM_onto Source.maps_ofRow (keeps_lookingUp .source) filled grows _
  findSource authenticator := by
    unfold Handle.findSource
    rw [reading_fst, reading_fst]
    exact head?_mapM_onto Source.maps_ofRow keeps_findingSource filled grows _
  listSources engine := by
    unfold Handle.listSources
    rw [reading_fst, reading_fst]
    exact mapM_onto Source.maps_ofRow (keeps_listing .source) filled grows _
  getObservation id := by
    unfold Handle.getObservation
    rw [reading_lookup_fst, reading_lookup_fst]
    exact head?_mapM_onto Observation.maps_ofRow (keeps_lookingUp .observation) filled grows _
  listObservations engine := by
    unfold Handle.listObservations
    rw [reading_fst, reading_fst]
    exact mapM_onto Observation.maps_ofRow (keeps_listing .observation) filled grows _

end Handle

/-- Whatever statements have led to the database of a handle, its records stay the same. -/
theorem Handle.sameRecords_of_changes {h : Handle} {wider : Sql.Database}
    (changes : Relation.ReflTransGen Sql.Database.Changes .empty h.connection.database)
    (grows : h.connection.database.Grows wider) : SameRecords h (h.onto wider) :=
  sameRecords_onto (Sql.Database.filled_of_changes changes) grows

/-- Sources and observations are read from rows by their fields alone: from the first column of the
name of each field, which has to hold a value of its kind; the first field for which it does not is
reported. So no record is looked up or listed differently once columns have been added to the
tables of a catalog. -/
theorem records_by_fields :
    Maps Source.ofRow Source.fields Source.IsIn ∧
      Maps Observation.ofRow Observation.fields Observation.IsIn ∧
        ∀ {h : Handle} {wider : Sql.Database},
          h.connection.database.Everywhere Sql.Table.Filled → h.connection.database.Grows wider →
            Handle.SameRecords h (h.onto wider) :=
  ⟨Source.maps_ofRow, Observation.maps_ofRow, Handle.sameRecords_onto⟩

theorem records_by_fields_with_note :
    ∃ (h : Handle) (wider : Sql.Database),
      h.connection.database.addColumn "source" "note" .text true (.text "new") = .ok wider ∧
        (h.getSource 1).1.toOption.join.map (·.name) = some "east" ∧
          ((h.onto wider).getSource 1).1 = (h.getSource 1).1 := by
  let named : Sql.Table := { Schema.sourceTable with rows := [⟨1, [.text "east", .text "token",
    .text "2020-01-01 00:00:00"]⟩] }
  let note : Sql.Column := ⟨"note", .text, true, none, .text "new"⟩
  let h : Handle := ⟨.librarian, "", .new ⟨[named]⟩, "", false⟩
  let wider : Sql.Database := ⟨[named.widened [note]]⟩
  have found : h.connection.database.table "source" = .ok named := rfl
  have column : named.addColumn note = .ok (named.widened [note]) :=
    Sql.Table.addColumn_eq_ok_iff.2 ⟨by decide, rfl, rfl⟩
  have added : h.connection.database.addColumn "source" "note" .text true (.text "new") =
      .ok wider := by
    simp only [Sql.Database.addColumn, found, bind, Except.bind]
    rw [show named.addColumn ⟨"note", .text, true, none, .text "new"⟩ = _ from column]
    rfl
  have filled : h.connection.database.Everywhere Sql.Table.Filled := by
    have whole : named.Filled := List.forall_mem_singleton.2 rfl
    exact List.forall_mem_singleton.2 whole
  have grows : h.connection.database.Grows wider := {
    added := .single ⟨"source", "note", .text, true, .text "new", added⟩
    others := by
      intro t
      cases t <;> decide }
  have same := records_by_fields.2.2 filled grows
  exact ⟨h, wider, added, by decide +kernel, same.getSource 1⟩

end ObsCatalog
