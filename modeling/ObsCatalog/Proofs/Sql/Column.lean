import ObsCatalog.Proofs.Sql.Change
import ObsCatalog.Proofs.Sql.Select

/-! Added columns.

A column that is added to a table comes after its other columns, and the rows are filled up with
the cell of the column. A selection whose names stand for the same columns as before finds the
same rows, in the same order, with further cells after theirs.
-/

set_option autoImplicit false

namespace ObsCatalog.Sql

def padded (columns : List Column) (cells : List Cell) : List Cell :=
  cells ++ columns.map (·.filled)

theorem getD_padded (columns : List Column) {cells : List Cell} {i : Nat}
    (inside : i < cells.length) :
    (padded columns cells).getD i .null = cells.getD i .null := by
  simp [padded, List.getD_eq_getElem?_getD, List.getElem?_append_left inside]

def StoredRow.padded (columns : List Column) (r : StoredRow) : StoredRow :=
  { r with cells := Sql.padded columns r.cells }

namespace Table

variable {t u : Table} {name : String} {names : List String}

def Filled (t : Table) : Prop := ∀ r ∈ t.rows, r.cells.length = t.columns.length

theorem Filled.removeRow (filled : t.Filled) (id : Int64) : (t.removeRow id).Filled :=
  fun r member => filled r (List.mem_filter.1 member).1

theorem Filled.insert (filled : t.Filled) {cells : List Cell} {draws : Draws} {row : StoredRow}
    (done : t.insert names cells draws = .ok (row, u)) : u.Filled := by
  obtain ⟨id, -, done⟩ := ok_of_bind done
  obtain ⟨changed, inserted, done⟩ := ok_of_bind done
  cases done
  rw [insertRow_eq] at inserted
  split at inserted
  · cases inserted
  split at inserted
  · cases inserted
  · cases inserted
    intro r member
    rcases mem_insertOrdered.1 member with rfl | member
    · exact List.length_map _
    · exact filled r member

theorem Filled.update (filled : t.Filled) {id : Int64} {cells : List Cell} {count : Nat}
    (done : t.update id names cells = .ok (count, u)) : u.Filled := by
  unfold Table.update at done
  split at done
  · cases done
    exact filled
  next r found =>
    obtain ⟨_, -, done⟩ := ok_of_bind done
    cases done
    intro s member
    obtain ⟨s, known, rfl⟩ := List.mem_map.1 member
    split
    · simp [assigned, filled r (List.mem_of_find?_eq_some found)]
    · exact filled s known

theorem Filled.addColumn (filled : t.Filled) {column : Column}
    (done : t.addColumn column = .ok u) : u.Filled := by
  unfold Table.addColumn at done
  split at done
  · cases done
  split at done
  · cases done
  · cases done
    intro s member
    obtain ⟨r, known, rfl⟩ := List.mem_map.1 member
    simp [filled r known]

theorem Filled.dropColumn (filled : t.Filled) (done : t.dropColumn name = .ok u) : u.Filled := by
  unfold Table.dropColumn at done
  split at done
  · cases done
  next i _ =>
    split at done
    · cases done
    · cases done
      intro s member
      obtain ⟨r, known, rfl⟩ := List.mem_map.1 member
      simp only [List.length_eraseIdx, filled r known]

theorem Filled.renameColumn (filled : t.Filled) {target : String}
    (done : t.renameColumn name target = .ok u) : u.Filled := by
  unfold Table.renameColumn at done
  split at done
  · cases done
  simp only at done
  split at done
  · cases done
  · cases done
    intro r member
    rw [List.length_map]
    exact filled r member

theorem lasting_filled : Lasting Filled where
  removeRow id filled := filled.removeRow id
  insert filled done := filled.insert done
  update filled done := filled.update done
  addColumn filled done := filled.addColumn done
  dropColumn filled done := filled.dropColumn done
  renameColumn filled done := filled.renameColumn done

def widened (t : Table) (columns : List Column) : Table :=
  { t with
    columns := t.columns ++ columns
    rows := t.rows.map (·.padded columns) }

theorem columnNames_widened (t : Table) (columns : List Column) :
    (t.widened columns).columnNames = t.columnNames ++ columns.map (·.name) := by
  simp [columnNames, widened]

theorem hasColumn_widened (t : Table) (columns : List Column) (name : String) :
    (t.widened columns).hasColumn name =
      (t.hasColumn name || columns.any fun column => sameName name column.name) := by
  rw [hasColumn, columnNames_widened, List.any_append, hasColumn, List.any_map]
  rfl

theorem widened_nil (t : Table) : t.widened [] = t := by
  simp [widened, StoredRow.padded, padded]

theorem widened_widened (t : Table) (columns more : List Column) :
    (t.widened columns).widened more = t.widened (columns ++ more) := by
  simp [widened, StoredRow.padded, padded, Function.comp_def]

theorem addColumn_eq_ok_iff {column : Column} :
    t.addColumn column = .ok u ↔ t.hasColumn column.name = false ∧
      (column.required && column.fill.isNull && !t.rows.isEmpty) = false ∧
        u = t.widened [column] := by
  unfold Table.addColumn
  cases t.hasColumn column.name with
  | true => simp
  | false =>
    cases column.required && column.fill.isNull && !t.rows.isEmpty with
    | true => simp
    | false => simp [widened, StoredRow.padded, padded, eq_comm]

/-- The table is the other one with further columns, none of whose names it had. -/
def Widens (t wide : Table) : Prop :=
  ∃ columns : List Column, (∀ column ∈ columns, t.hasColumn column.name = false) ∧
    wide = t.widened columns

theorem Widens.refl (t : Table) : t.Widens t :=
  ⟨[], List.forall_mem_nil _, (widened_nil t).symm⟩

theorem Widens.trans {v : Table} (first : t.Widens u) (second : u.Widens v) : t.Widens v := by
  obtain ⟨columns, others, rfl⟩ := first
  obtain ⟨more, further, rfl⟩ := second
  refine ⟨columns ++ more, List.forall_mem_append.2 ⟨others, fun column member => ?_⟩,
    widened_widened t columns more⟩
  have absent := further column member
  rw [hasColumn_widened] at absent
  exact (Bool.or_eq_false_iff.1 absent).1

theorem Widens.rel_trans {a b c : Option Table} (first : Option.Rel Widens a b)
    (second : Option.Rel Widens b c) : Option.Rel Widens a c := by
  cases first with
  | none => exact second
  | some first =>
    cases second with
    | some second => exact .some (first.trans second)

end Table

namespace Database

variable {db wider : Database}

theorem filled_of_changes (changes : Relation.ReflTransGen Changes .empty db) :
    db.Everywhere Table.Filled := by
  apply everywhere_of_changes Table.lasting_filled _ changes
  intro t none r member
  rw [none] at member
  cases member

def AddsColumn (db wider : Database) : Prop :=
  ∃ table column affinity required fill,
    db.addColumn table column affinity required fill = .ok wider

theorem AddsColumn.table? (adds : db.AddsColumn wider) (name : String) :
    Option.Rel Table.Widens (db.table? name) (wider.table? name) := by
  obtain ⟨table, column, affinity, required, fill, done⟩ := adds
  obtain ⟨t, found, done⟩ := ok_of_bind done
  obtain ⟨u, added, done⟩ := ok_of_bind done
  cases done
  obtain ⟨absent, -, rfl⟩ := Table.addColumn_eq_ok_iff.1 added
  obtain ⟨declared, given⟩ : ∃ c : Column, c = ⟨column, affinity, required, none, fill⟩ := ⟨_, rfl⟩
  rw [← given] at absent ⊢
  obtain rfl := name_of_table found
  by_cases own : t.name = name
  · subst own
    have known := table_eq_ok_iff.1 found
    have changed : (db.withTable (t.widened [declared])).table? t.name =
        some (t.widened [declared]) := table?_withTable_self known
    rw [known, changed]
    exact .some ⟨[declared], List.forall_mem_singleton.2 absent, rfl⟩
  · have kept : (db.withTable (t.widened [declared])).table? name = db.table? name :=
      table?_withTable_of_ne db own
    rw [kept]
    cases db.table? name with
    | none => exact .none
    | some s => exact .some (.refl s)

/-- Adding columns leaves every table there, with further columns at most. -/
theorem table?_of_addsColumns (added : Relation.ReflTransGen AddsColumn db wider) (name : String) :
    Option.Rel Table.Widens (db.table? name) (wider.table? name) := by
  induction added with
  | refl =>
    cases db.table? name with
    | none => exact .none
    | some s => exact .some (.refl s)
  | tail _ adds ih => exact Table.Widens.rel_trans ih (adds.table? name)

end Database

namespace Mention

variable {t : Table} {name : String} {columns : List Column}

/-- A name stands for the same column as before, unless there was none of the name. -/
theorem columnOf_widened (kept : (t.widened columns).hasColumn name → t.hasColumn name) :
    columnOf (t.widened columns) name = columnOf t name := by
  unfold columnOf
  by_cases key : sameName name t.key
  · rw [if_pos key]
    exact if_pos key
  have other : ¬ sameName name (t.widened columns).key := key
  rw [if_neg key, if_neg other]
  simp only [Table.widened, List.findIdx?_append]
  cases found : t.columns.findIdx? fun column => sameName name column.name with
  | some i =>
    have inside := (List.findIdx?_eq_some_iff_getElem.1 found).1
    simp [List.getElem?_append_left inside]
  | none =>
    -- The name is none of the columns, so by `kept` it is none of the added ones either.
    have absent : t.hasColumn name = false := by
      rw [List.findIdx?_eq_none_iff] at found
      simpa [Table.hasColumn, Table.columnNames, key] using found
    have still : (t.widened columns).hasColumn name = false := by
      rw [Bool.eq_false_iff]
      exact fun present => by simp [kept present] at absent
    rw [Table.hasColumn_widened] at still
    have others := (Bool.or_eq_false_iff.1 still).2
    have none : columns.findIdx? (fun column => sameName name column.name) = none := by
      simpa [List.findIdx?_eq_none_iff] using others
    rw [none]
    rfl

theorem reads_of_resolve {m : Mention} {e : Term} (resolved : m.resolve t = .ok e) :
    e.readsOnly t.holds fun _ => true := by
  rcases of_resolve resolved with ⟨c, holds, rfl⟩ | ⟨c, rfl⟩
  · exact holds
  · rfl

end Mention

namespace Expr

variable {columns : ColumnRef → Bool} {functions : Function → Bool}

theorem readOnly_append (es fs : List Term) : readOnly columns functions (es ++ fs) =
    (readOnly columns functions es && readOnly columns functions fs) := by
  induction es with
  | nil => rfl
  | cons e es ih => rw [List.cons_append, readOnly, readOnly, ih, Bool.and_assoc]

theorem readOnly_columns (cs : List ColumnRef) :
    readOnly columns functions (cs.map .column) = cs.all columns := by
  induction cs with
  | nil => rfl
  | cons c cs ih => rw [List.map_cons, readOnly, ih, List.all_cons, readsOnly]

theorem readsOnly_terms {e : Term} (reads : e.readsOnly columns functions) :
    ∀ x ∈ e.terms, x.readsOnly columns functions := by
  fun_induction terms e with
  | case1 a b left right =>
    obtain ⟨first, second⟩ := Bool.and_eq_true_iff.1 reads
    exact List.forall_mem_append.2 ⟨left first, right (Bool.and_eq_true_iff.1 second).1⟩
  | case2 e single => exact List.forall_mem_singleton.2 reads

variable {ν φ ε : Type} {names : ν → Except ε Term} {calls : φ → List Term → Except ε Term}

mutual

theorem reads_of_resolved (reads : ∀ n e, names n = .ok e → e.readsOnly columns functions)
    (called : ∀ f es e, readOnly columns functions es → calls f es = .ok e →
      e.readsOnly columns functions) :
    ∀ (d : Expr ν φ) (e : Term), d.resolved names calls = .ok e → e.readsOnly columns functions
  | .literal _, _, resolved => by
    cases resolved
    rfl
  | .parameter _, _, resolved => by
    cases resolved
    rfl
  | .column n, e, resolved => reads n e resolved
  | .apply _ operands, _, resolved => by
    obtain ⟨es, known, resolved⟩ := ok_of_bind resolved
    cases resolved
    exact read_of_resolvedList reads called operands es known
  | .call f operands, e, resolved => by
    obtain ⟨es, known, resolved⟩ := ok_of_bind resolved
    exact called f es e (read_of_resolvedList reads called operands es known) resolved

theorem read_of_resolvedList (reads : ∀ n e, names n = .ok e → e.readsOnly columns functions)
    (called : ∀ f es e, readOnly columns functions es → calls f es = .ok e →
      e.readsOnly columns functions) :
    ∀ (ds : List (Expr ν φ)) (es : List Term), resolvedList names calls ds = .ok es →
      readOnly columns functions es
  | [], _, resolved => by
    cases resolved
    rfl
  | d :: rest, _, resolved => by
    obtain ⟨e, first, resolved⟩ := ok_of_bind resolved
    obtain ⟨es, others, resolved⟩ := ok_of_bind resolved
    cases resolved
    exact Bool.and_eq_true_iff.2 ⟨reads_of_resolved reads called d e first,
      read_of_resolvedList reads called rest es others⟩

end

/-- No test of the condition fails, whatever the values are. -/
def IsSettled (e : Term) : Prop := ∀ s, ∀ x ∈ e.terms, Settles s x

end Expr

theorem Call.reads_of_resolve {engine : Engine} {db : Database} {t : Table}
    {located : Problem → Nat → Fault} {c : Call} {es : List Term} {e : Term}
    (reads : Expr.readOnly t.holds (fun _ => true) es)
    (resolved : c.resolve engine db t located es = .ok e) :
    e.readsOnly t.holds fun _ => true := by
  cases c with
  | function name offset =>
    simp only [resolve] at resolved
    split at resolved
    · cases resolved
      exact reads
    · cases resolved
  | query form words offset =>
    have all : t.columnRefs.all t.holds := by
      refine List.all_eq_true.2 (List.forall_mem_cons.2 ⟨rfl, fun c member => ?_⟩)
      obtain ⟨i, inside, rfl⟩ := List.mem_mapIdx.1 member
      exact decide_eq_true inside
    simp only [resolve] at resolved
    split at resolved
    · cases resolved
      show Expr.readOnly _ _ _ = true
      rw [Expr.readOnly_append, reads, Expr.readOnly_columns, all]
      rfl
    · cases resolved
  | elementCount found expected => cases resolved
  | collation name => cases resolved
  | hexNumber spelling offset => cases resolved

/-- A condition reads only columns of the table against which its names have been resolved. -/
theorem Select.reads_of_resolve {engine : Engine} {db : Database} {t : Table} {s : Select}
    {d : Condition.Parsed} {e : Term} (resolved : s.resolve engine db t d = .ok e) :
    e.readsOnly t.holds fun _ => true := by
  obtain ⟨known, -⟩ := resolve_eq_ok_iff.1 resolved
  refine Expr.reads_of_resolved (fun m e found => ?_)
    (fun _ _ _ reads found => Call.reads_of_resolve reads found) d e known
  unfold resolveMention at found
  split at found
  · next e' same =>
    cases found
    exact Mention.reads_of_resolve same
  · cases found

def Selected.padded (columns : List Column) (s : Selected) : Selected :=
  ⟨s.columns ++ columns.map (·.name), s.rows.map (Sql.padded columns)⟩

namespace Select

variable {db wider : Database} {t : Table} {s : Select} {columns : List Column} {engine : Engine}

/-- The cell of a column of the table is the same in a row with further cells. -/
theorem column_padded (filled : t.Filled) {r : StoredRow} (stored : r ∈ t.rows) {c : ColumnRef}
    (holds : t.holds c) (values : List Cell) :
    Scope.column ⟨r.id, (r.padded columns).cells, values⟩ c =
      Scope.column ⟨r.id, r.cells, values⟩ c := by
  obtain ⟨_ | i, affinity⟩ := c
  · rfl
  · refine getD_padded columns ?_
    rw [filled r stored]
    exact of_decide_eq_true holds

theorem selects_padded (filled : t.Filled) {r : StoredRow} (stored : r ∈ t.rows) {e : Term}
    (reads : e.readsOnly t.holds fun _ => true) (values : List Cell) :
    e.selects ⟨r.id, (r.padded columns).cells, values⟩ = e.selects ⟨r.id, r.cells, values⟩ := by
  rw [Bool.eq_iff_iff, Expr.selects, Expr.selects, List.all_eq_true, List.all_eq_true]
  refine forall₂_congr fun x member => ?_
  rw [Expr.isTrue, Expr.isTrue, Expr.eval_of_readsOnly
    (fun c holds => column_padded filled stored holds values) (fun _ => rfl) x
    (Expr.readsOnly_terms reads x member)]

theorem arrange_padded (filled : t.Filled) {rows : List StoredRow} (stored : rows ⊆ t.rows)
    {order : Option ColumnRef} (holds : ∀ c ∈ order, t.holds c) :
    arrange (rows.map (·.padded columns)) order = (arrange rows order).map (·.padded columns) := by
  unfold arrange
  split
  · next i affinity =>
    have same {r : StoredRow} (member : r ∈ rows) :
        (r.padded columns).cells.getD i .null = r.cells.getD i .null :=
      column_padded filled (stored member) (holds _ rfl) []
    rw [List.map_mergeSort]
    intro a first b second
    rw [same first, same second]
  · rfl

theorem filter_padded (filled : t.Filled) {e : Term} (reads : e.readsOnly t.holds fun _ => true)
    (values : List Cell) :
    (t.widened columns).rows.filter (fun r => e.selects ⟨r.id, r.cells, values⟩) =
      (t.rows.filter fun r => e.selects ⟨r.id, r.cells, values⟩).map (·.padded columns) := by
  rw [Table.widened, List.filter_map]
  exact congrArg _ (List.filter_congr fun r stored => selects_padded filled stored reads values)

theorem cells_padded (columns : List Column) (rows : List StoredRow) :
    (rows.map (·.padded columns)).map (fun r => Cell.integer r.id :: r.cells) =
      (rows.map fun r => Cell.integer r.id :: r.cells).map (Sql.padded columns) := by
  rw [List.map_map, List.map_map]
  rfl

/-- Without names for the further columns, a selection that cannot fail finds the same rows. -/
theorem run_widened (filled : t.Filled) (found : db.table s.table = .ok t)
    (wide : wider.table s.table = .ok (t.widened columns))
    (condition : ∀ read, s.read = .ok read →
      s.resolve engine wider (t.widened columns) read.expr = s.resolve engine db t read.expr)
    (settled : ∀ read e, s.read = .ok read → s.resolve engine db t read.expr = .ok e → e.IsSettled)
    (ordered : s.order (t.widened columns) = s.order t) (values : List Cell) :
    s.run wider values engine = (s.run db values engine).map (·.padded columns) := by
  unfold run
  cases known : s.read with
  | error fault => rfl
  | ok read =>
    simp only [found, wide, ordered, condition read known, bind, Except.bind]
    cases resolved : s.resolve engine db t read.expr with
    | error fault => rfl
    | ok e =>
      cases placed : s.order t with
      | error fault => rfl
      | ok order =>
        cases checkCount values.length read.parameters with
        | error fault => rfl
        | ok _ =>
          have holds : ∀ c ∈ order, t.holds c := by
            unfold Select.order at placed
            split at placed
            · cases placed
              nofun
            · split at placed
              · next c named =>
                cases placed
                rintro _ ⟨⟩
                exact Mention.holds_of_columnOf named
              · cases placed
          -- No term can fail, whatever the row, so that rows are filtered in both tables.
          have settles (u : Table) : Steady u e.terms values :=
            .of_settles fun s _ => settled read e known resolved s
          have picked := List.filter_subset_self (l := t.rows)
            (p := fun r => e.selects ⟨r.id, r.cells, values⟩)
          simp only [(settles t).found_eq, (settles (t.widened columns)).found_eq,
            filter_padded filled (reads_of_resolve resolved), arrange_padded filled picked holds,
            Table.columnNames_widened]
          -- With a limit and without, the rows that are taken are padded alike.
          cases s.limit with
          | none =>
            simp only [cells_padded]
            rfl
          | some n =>
            simp only [← List.map_take, cells_padded]
            rfl

end Select

end ObsCatalog.Sql
