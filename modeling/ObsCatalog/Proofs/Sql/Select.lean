import ObsCatalog.Proofs.Sql.Steady

/-! Selections of records.

Without a condition a selection takes every row. With an id for the one parameter of its
condition it takes the row that has the id.
-/

set_option autoImplicit false

namespace ObsCatalog.Sql

/-! The conditions for an id and for an authenticator. -/

theorem tokens_id : Numbering.empty.apply (lexemes "id = ?1") =
    [⟨.name "id", "id", 0⟩, ⟨.comparison .equal, "=", 3⟩,
      ⟨.parameter (.numbered 1) 1, "?1", 5⟩] := by
  rfl

theorem expression_equality {name : String} {placeholder : Placeholder} {index : Nat}
    {first second third : String} {start middle last : Nat} :
    Condition.expression
        [⟨.name name, first, start⟩, ⟨.comparison .equal, second, middle⟩,
          ⟨.parameter placeholder index, third, last⟩] =
      .ok (.compare .equal (.column (.column none name false start)) (.parameter index), []) := by
  rfl

theorem read_id (statement : String) (base : Nat) :
    Condition.read statement base "id = ?1" =
      .ok ⟨.compare .equal (.column (.column none "id" false 0)) (.parameter 1), 1⟩ := by
  simp only [Condition.read, tokens_id, expression_equality]
  rfl

theorem read_authenticator (statement : String) (base : Nat) :
    Condition.read statement base "authenticator = ?1" =
      .ok ⟨.compare .equal (.column (.column none "authenticator" false 0)) (.parameter 1), 1⟩ := by
  have tokens : Numbering.empty.apply (lexemes "authenticator = ?1") =
      [⟨.name "authenticator", "authenticator", 0⟩, ⟨.comparison .equal, "=", 14⟩,
        ⟨.parameter (.numbered 1) 1, "?1", 16⟩] := by rfl
  simp only [Condition.read, tokens, expression_equality]
  rfl

theorem Cell.order_integer (m n : Int64) :
    (Cell.integer m).order (.integer n) = compare
      (Real.intUnits m.toInt) (Real.intUnits n.toInt) := by
  simp [Cell.order, Cell.rank, Cell.units?, Cell.bytes, Cell.order.compareBytes]

theorem Cell.compared_integer (m n : Int64) :
    (Cell.integer m).compared .numeric .equal (.integer n) = some (m == n) := by
  show some ((Cell.integer m).order (.integer n) == .eq) = some (m == n)
  -- Cells are compared as multiples of one unit, which tell all integers apart.
  rw [Option.some.injEq, Bool.eq_iff_iff, beq_iff_eq, beq_iff_eq, Cell.order_integer,
    Std.compare_eq_iff_eq]
  exact ⟨fun units => Int64.toInt.inj (Real.intUnits_injective units), fun same => by rw [same]⟩

/-- The column is the key or one of the table's columns. -/
def Table.holds (t : Table) (c : ColumnRef) : Bool :=
  c.place.all fun i => decide (i < t.columns.length)

namespace Mention

variable {t : Table} {name : String}

theorem holds_of_columnOf {c : ColumnRef} (known : columnOf t name = some c) : t.holds c := by
  unfold columnOf at known
  split at known
  · cases known
    rfl
  split at known
  · next i found =>
    cases known
    exact decide_eq_true (List.findIdx?_eq_some_iff_getElem.1 found).1
  · split at known
    · cases known
      rfl
    · cases known

theorem of_resolve {m : Mention} {e : Term} (resolved : m.resolve t = .ok e) :
    (∃ c, t.holds c ∧ e = .column c) ∨ ∃ c, e = .literal c := by
  cases m with
  | qualified schema table name offset =>
    simp only [resolve] at resolved
    split at resolved
    · next c found =>
      cases resolved
      split at found
      · exact .inl ⟨c, holds_of_columnOf found, rfl⟩
      · cases found
    · cases resolved
  | column table name double offset =>
    cases table with
    | some table =>
      simp only [resolve] at resolved
      split at resolved
      · next c found =>
        cases resolved
        split at found
        · exact .inl ⟨c, holds_of_columnOf found, rfl⟩
        · cases found
      · cases resolved
    | none =>
      simp only [resolve] at resolved
      split at resolved
      · next c found =>
        cases resolved
        exact .inl ⟨c, holds_of_columnOf found, rfl⟩
      -- A name without a column is a text, one or zero, or nothing.
      · repeat' split at resolved
        all_goals
          cases resolved
          try exact .inr ⟨_, rfl⟩

end Mention

namespace Expr

theorem selects_of_truth {s : Scope} {e : Term} {truth : Option Bool} (single : e.terms = [e])
    (known : (e.eval s).truth = .ok truth) : e.selects s = (truth == some true) := by
  rw [selects, single, List.all_cons, List.all_nil, Bool.and_true, isTrue, known]
  rcases truth with _ | _ | _ <;> rfl

theorem selects_literal (s : Scope) (c : Cell) :
    selects (.literal c) s = (c.truth? == some true) := selects_of_truth rfl rfl

theorem selects_equality (s : Scope) (c : ColumnRef) (index : Nat) :
    selects (.compare .equal (.column c) (.parameter index)) s =
      ((s.column c).compared (Affinity.conversion (some c.affinity) none) .equal
        (s.parameter index) == some true) := selects_of_truth rfl rfl

end Expr

namespace Select

variable {db : Database} {t : Table} {engine : Engine}

theorem steady_equality (t : Table) (c : ColumnRef) (index : Nat) (parameters : List Cell) :
    Steady t (Expr.terms (.compare .equal (.column c) (.parameter index))) parameters :=
  .of_settles fun _ _ => List.forall_mem_singleton.2 ⟨_, rfl⟩

theorem resolve_eq_ok_iff {s : Select} {d : Condition.Parsed} {e : Term} :
    s.resolve engine db t d = .ok e ↔
      d.resolved (s.resolveMention t) (Call.resolve engine db t s.located) = .ok e ∧
        e.width = some 1 := by
  unfold resolve
  cases d.resolved (s.resolveMention t) (Call.resolve engine db t s.located) with
  | error fault => simp [bind, Except.bind]
  | ok e' =>
    simp only [bind, Except.bind, Except.ok.injEq]
    split
    · next one =>
      exact ⟨fun same => by cases same; exact ⟨rfl, one⟩, fun ⟨same, _⟩ => congrArg Except.ok same⟩
    · next other =>
      exact ⟨nofun, fun ⟨same, one⟩ => absurd (same ▸ one) other⟩

/-- A name that a column has stands for it in a comparison with a parameter. -/
theorem resolve_equality {s : Select} {name : String} {c : ColumnRef}
    (known : Mention.columnOf t name = some c) (index offset : Nat) :
    s.resolve engine db t
        (.compare .equal (.column (.column none name false offset)) (.parameter index)) =
      .ok (.compare .equal (.column c) (.parameter index)) := by
  have column : s.resolveMention t (.column none name false offset) = .ok (.column c) := by
    simp only [resolveMention, Mention.resolve, known]
  simp only [resolve, Expr.resolved, Expr.resolvedList, column]
  rfl

theorem arrange_perm (rows : List StoredRow) (order : Option ColumnRef) :
    (arrange rows order).Perm rows := by
  unfold arrange
  split
  · exact List.mergeSort_perm rows _
  · exact .refl rows

theorem stages_of_run {q : Select} {parameters : List Cell} {selected : Selected}
    (done : q.run db parameters engine = .ok selected) :
    ∃ read t e order found, q.read = .ok read ∧ db.table q.table = .ok t ∧
      q.resolve engine db t read.expr = .ok e ∧ q.order t = .ok order ∧
      parameters.length = read.parameters ∧ Select.found engine t e parameters = .ok found ∧
      let rows := arrange found order
      selected = ⟨t.columnNames,
        (q.limit.elim rows rows.take).map fun r => .integer r.id :: r.cells⟩ := by
  obtain ⟨read, condition, done⟩ := ok_of_bind done
  obtain ⟨t, known, done⟩ := ok_of_bind done
  obtain ⟨e, resolved, done⟩ := ok_of_bind done
  obtain ⟨order, ordered, done⟩ := ok_of_bind done
  obtain ⟨_, checked, done⟩ := ok_of_bind done
  obtain ⟨found, tested, done⟩ := ok_of_bind done
  have count : parameters.length = read.parameters := by
    unfold checkCount at checked
    split at checked
    · assumption
    · cases checked
  refine ⟨read, t, e, order, found, condition, known, resolved, ordered, count, tested, ?_⟩
  obtain ⟨table, text, orderBy, limit⟩ := q
  cases limit <;> exact (Except.ok.inj done).symm

/-- A selection finds rows of its table, in the order of their ids unless it is given another. -/
theorem rows_of_run {q : Select} {parameters : List Cell} {selected : Selected}
    (done : q.run db parameters engine = .ok selected) :
    ∃ (t : Table) (found : List StoredRow), db.table q.table = .ok t ∧
      (∀ r ∈ found, r ∈ t.rows) ∧ (q.orderBy = none → found.Sublist t.rows) ∧
      selected = ⟨t.columnNames, found.map fun r => .integer r.id :: r.cells⟩ := by
  obtain ⟨read, t, e, order, found, -, known, -, ordered, -, tested, rfl⟩ := stages_of_run done
  have taken : (q.limit.elim (arrange found order) (arrange found order).take).Sublist
      (arrange found order) := by
    cases q.limit with
    | none => exact .refl _
    | some n => exact List.take_sublist n _
  refine ⟨t, _, known, fun r member => ?_, fun unordered => ?_, rfl⟩
  · exact subset_of_found tested ((arrange_perm _ order).mem_iff.1 (taken.subset member))
  · rw [Select.order, unordered] at ordered
    cases ordered
    exact taken.trans (eq_of_found tested ▸ List.filter_sublist)

/-- What a selection finds once its condition and its order make sense for a table, if the
condition does not fail. -/
theorem run_eq {s : Select} {parameters : List Cell} {read : Condition.Read} {e : Term}
    {order : Option ColumnRef} (condition : s.read = .ok read) (found : db.table s.table = .ok t)
    (resolved : s.resolve engine db t read.expr = .ok e) (ordered : s.order t = .ok order)
    (count : parameters.length = read.parameters) (steady : Steady t e.terms parameters) :
    s.run db parameters engine =
      let rows := arrange (t.rows.filter fun r => e.selects ⟨r.id, r.cells, parameters⟩) order
      .ok ⟨t.columnNames,
        (s.limit.elim rows rows.take).map fun r => .integer r.id :: r.cells⟩ := by
  have complete : checkCount parameters.length read.parameters = .ok () := by
    rw [checkCount, if_pos count]
  have tested := steady.found_eq engine
  obtain ⟨table, text, orderBy, limit⟩ := s
  -- With a limit and without, the same rows are left to take from.
  cases limit <;>
    simp only [run, condition, found, resolved, ordered, complete, tested, Except.bind, bind] <;>
    rfl

theorem run_all (found : db.table t.name = .ok t) :
    (Select.mk t.name none none none).run db [] engine =
      .ok ⟨t.columnNames, t.rows.map fun r => .integer r.id :: r.cells⟩ := by
  have every : (t.rows.filter fun r =>
      Expr.selects (.literal (.ofBool true)) ⟨r.id, r.cells, []⟩) = t.rows :=
    List.filter_eq_self.2 fun r _ => by
      rw [Expr.selects_literal, Cell.truth?_ofBool, beq_self_eq_true]
  have steady : Steady t (Expr.terms (.literal (.ofBool true))) [] :=
    .of_settles fun _ _ => List.forall_mem_singleton.2 ⟨_, rfl⟩
  rw [run_eq rfl found rfl rfl rfl steady]
  simp only [every, arrange, Option.elim]

theorem run_id (found : db.table t.name = .ok t) (key : t.key = "id") (id : Int64) :
    (Select.mk t.name (some "id = ?1") none (some 1)).run db [.integer id] engine =
      .ok ⟨t.columnNames,
        ((t.rows.filter (·.id == id)).take 1).map fun r => .integer r.id :: r.cells⟩ := by
  have condition : (Select.mk t.name (some "id = ?1") none (some 1)).read =
      .ok ⟨.compare .equal (.column (.column none "id" false 0)) (.parameter 1), 1⟩ := by
    simp only [Select.read, read_id]
  have column : Mention.columnOf t "id" = some ⟨none, .integer⟩ := by
    rw [Mention.columnOf, key]
    rfl
  have selects (r : StoredRow) : Expr.selects
      (.compare .equal (.column ⟨none, .integer⟩) (.parameter 1)) ⟨r.id, r.cells, [.integer id]⟩ =
      (r.id == id) := by
    have compared := Cell.compared_integer r.id id
    rw [Expr.selects_equality]
    simp only [Scope.column, Scope.parameter, Affinity.conversion, Affinity.isNumeric,
      List.getD_cons_zero, if_true, compared]
    cases r.id == id <;> rfl
  rw [run_eq condition found (resolve_equality column 1 0) rfl rfl (steady_equality t _ 1 _)]
  simp only [arrange, selects, Option.elim]

end Select

end ObsCatalog.Sql
