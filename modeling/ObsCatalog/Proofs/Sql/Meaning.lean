import ObsCatalog.Proofs.Sql.Conjunction
import ObsCatalog.Proofs.Sql.Select

/-! What conditions mean.

A whole condition means a set of rows. The conjunction of two such conditions has the terms of
both, so it means the rows that both mean, and it does not fail where neither of them can.
-/

set_option autoImplicit false

namespace ObsCatalog.Sql

theorem Mention.renamed_of_resolve {t : Table} {m : Mention} {e : Term}
    (resolved : m.resolve t = .ok e) (index : Nat → Nat) : e.renamed id id index = e := by
  rcases of_resolve resolved with ⟨c, -, rfl⟩ | ⟨c, rfl⟩ <;> rfl

/-- The place of a name makes no difference to the column that it stands for. -/
theorem Mention.resolve_mention (F : Condition.Frame) (t : Table) (m : Mention) :
    (F.mention m).resolve t = m.resolve t := by
  cases m with
  | qualified schema table name offset => rfl
  | column table name double offset => cases table <;> rfl

namespace Condition

/-- A conjunction has the terms of both sides, unless one of them is the constant zero. -/
theorem resolved_conjunction {ε : Type} {names : Mention → Except ε Term}
    {calls : Call → List Term → Except ε Term} {a b : Parsed} {p q : Term}
    (left : a.resolved names calls = .ok p) (right : b.resolved names calls = .ok q) :
    ∃ r, (conjunction a b).resolved names calls = .ok r ∧
      (r = .and p q ∨ r = .literal (.integer 0) ∧ (p = r ∨ q = r)) := by
  have zero {e : Parsed} {p : Term} (zero : isZero e) (resolved : e.resolved names calls = .ok p) :
      p = .literal (.integer 0) := by
    unfold isZero at zero
    split at zero
    · rw [beq_iff_eq.1 zero] at resolved
      cases resolved
      rfl
    · cases zero
  unfold conjunction
  split
  · next either =>
    refine ⟨.literal (.integer 0), rfl, .inr ⟨rfl, ?_⟩⟩
    exact (Bool.or_eq_true_iff.1 either).imp (zero · left) (zero · right)
  · refine ⟨.and p q, ?_, .inl rfl⟩
    simp only [Expr.resolved, Expr.resolvedList, left, right, bind, Except.bind]
    rfl

end Condition

namespace Select

variable {engine : Engine} {db : Database} {t : Table} {a b : String} {v w : List Cell}
  {p q : StoredRow → Bool} {firm firm' : Prop}

/-- The selection of the rows of a table for which a text is true. -/
def filtered (t : Table) (clause : String) : Select := ⟨t.name, some clause, none, none⟩

theorem resolveMention_mention (F : Condition.Frame) (t : Table) (a b : String) (m : Mention) :
    Mirrors (Expr.renamed id id F.index) ((filtered t a).resolveMention t m)
      ((filtered t b).resolveMention t (F.mention m)) := by
  intro e found
  cases resolved : m.resolve t with
  | error problem => simp only [resolveMention, resolved] at found; cases found
  | ok same =>
    simp only [resolveMention, resolved] at found
    cases found
    simp only [resolveMention, Mention.resolve_mention, resolved,
      Mention.renamed_of_resolve resolved]

theorem resolve_call (F : Condition.Frame) (located located' : Problem → Nat → Fault) (c : Call)
    (es : List Term) :
    Mirrors (Expr.renamed id id F.index) (c.resolve engine db t located es)
      ((F.call c).resolve engine db t located' (Expr.renamedList id id F.index es)) := by
  intro e found
  cases c with
  | function name offset =>
    simp only [Condition.Frame.call, Call.resolve, Expr.length_renamedList] at found ⊢
    cases known : engine.function name es.length with
    | error problem => simp only [known] at found; cases found
    | ok f =>
      simp only [known] at found
      cases found
      rfl
  | query form words offset =>
    simp only [Condition.Frame.call, Call.resolve] at found ⊢
    cases known : engine.query db t form words with
    | error problem => simp only [known] at found; cases found
    | ok f =>
      simp only [known] at found
      cases found
      simp only [Expr.renamed, Expr.renamedList_eq, List.map_append, List.map_map, id]
      rfl
  | elementCount found expected => cases found
  | collation name => cases found
  | hexNumber spelling offset => cases found

/-- A text is a whole condition, and with values for its parameters it is true for some rows of
a table. If it is firm, it does not fail. -/
def Means (engine : Engine) (db : Database) (t : Table) (clause : String) (values : List Cell)
    (keeps : StoredRow → Bool) (firm : Prop) : Prop :=
  ∃ ts d e, Condition.Whole clause ts d ∧ Token.parameters ts = values.length ∧
    (filtered t clause).resolve engine db t d = .ok e ∧ (firm → Steady t e.terms values) ∧
    ∀ r : StoredRow, e.selects ⟨r.id, r.cells, values⟩ = keeps r

theorem agrees_firstFrame (ts us : List Lexeme) (first : Token.parameters ts = v.length)
    (key : Int64) (cells : List Cell) :
    Expr.Agrees (Condition.firstFrame a b ts us).index ⟨key, cells, v⟩ ⟨key, cells, v ++ w⟩ where
  column _ := rfl
  parameter i := by
    simp only [Condition.firstFrame, first]
    cases i with
    | zero => rfl
    | succ i =>
      by_cases given : i < v.length
      · rw [if_pos ⟨Nat.succ_pos i, given⟩]
        simp [Scope.parameter, List.getElem?_append_left given]
      · rw [if_neg fun inside => given inside.2]
        simp [Scope.parameter, Nat.not_lt.1 given]

theorem agrees_secondFrame (ts us : List Lexeme) (first : Token.parameters ts = v.length)
    (second : Token.parameters us = w.length) (key : Int64) (cells : List Cell) :
    Expr.Agrees (Condition.secondFrame a b ts us).index ⟨key, cells, w⟩
      ⟨key, cells, v ++ w⟩ where
  column _ := rfl
  parameter i := by
    simp only [Condition.secondFrame, first, second]
    cases i with
    | zero => rfl
    | succ i =>
      by_cases given : i < w.length
      · rw [if_pos ⟨Nat.succ_pos i, given⟩, Nat.add_right_comm]
        simp [Scope.parameter, List.getElem?_append_right (Nat.le_add_left v.length i)]
      · rw [if_neg fun inside => given inside.2]
        simp [Scope.parameter, Nat.not_lt.1 given]

/-- What a text means does not change where it stands in a frame and its parameters keep their
values. -/
theorem meaning_framed (F : Condition.Frame) {d : Condition.Parsed} {e : Term}
    (resolved : (filtered t a).resolve engine db t d = .ok e) (steady : firm → Steady t e.terms v)
    (agrees : ∀ key cells, Expr.Agrees F.index ⟨key, cells, v⟩ ⟨key, cells, w⟩) (b : String) :
    ∃ e', (F.expr d).resolved ((filtered t b).resolveMention t)
          (Call.resolve engine db t (filtered t b).located) = .ok e' ∧
      e'.width = some 1 ∧ (firm → Steady t e'.terms w) ∧
      ∀ r : StoredRow, e'.selects ⟨r.id, r.cells, w⟩ = e.selects ⟨r.id, r.cells, v⟩ := by
  obtain ⟨known, one⟩ := resolve_eq_ok_iff.1 resolved
  refine ⟨e.renamed id id F.index, ?_, (Expr.width_renamed F.index e).trans one, ?_, fun r => ?_⟩
  · exact Expr.resolved_renamed (resolveMention_mention F t a b)
      (resolve_call F (filtered t a).located (filtered t b).located) d e known
  · rw [Expr.terms_renamed]
    exact fun firm => (steady firm).renamed agrees
  · exact Expr.selects_renamed (agrees r.id r.cells) e

/-- A conjunction is true for the rows for which both texts are. -/
theorem Means.joined (left : Means engine db t a v p firm)
    (right : Means engine db t b w q firm') :
    Means engine db t (Condition.joined a b) (v ++ w) (fun r => p r && q r) (firm ∧ firm') := by
  obtain ⟨ts, d, e, wholeLeft, countLeft, resolvedLeft, steadyLeft, selectsLeft⟩ := left
  obtain ⟨us, d', e', wholeRight, countRight, resolvedRight, steadyRight, selectsRight⟩ := right
  -- Each side keeps its meaning within the joined text, where the parameters of the second
  -- side come after those of the first.
  obtain ⟨x, resolvedLeft, widthLeft, steadyLeft, sameLeft⟩ := meaning_framed
    (Condition.firstFrame a b ts us) resolvedLeft steadyLeft (agrees_firstFrame ts us countLeft)
    (Condition.joined a b)
  obtain ⟨y, resolvedRight, widthRight, steadyRight, sameRight⟩ := meaning_framed
    (Condition.secondFrame a b ts us) resolvedRight steadyRight
    (agrees_secondFrame ts us countLeft countRight) (Condition.joined a b)
  have count : Token.parameters (Condition.joinedLexemes a b ts us) = (v ++ w).length := by
    rw [Condition.parameters_joined, countLeft, countRight, List.length_append]
  have sides (r : StoredRow) : (x.selects ⟨r.id, r.cells, v ++ w⟩ &&
      y.selects ⟨r.id, r.cells, v ++ w⟩) = (p r && q r) := by
    rw [sameLeft, sameRight, selectsLeft, selectsRight]
  obtain ⟨c, resolved, both | ⟨zero, either⟩⟩ :=
    Condition.resolved_conjunction resolvedLeft resolvedRight
  · subst both
    have one : Expr.width (.and x y) = some 1 := by
      simp [Expr.width, Expr.widths, widthLeft, widthRight, Operation.width, Operation.admits]
    refine ⟨_, _, _, wholeLeft.joined wholeRight, count, resolve_eq_ok_iff.2 ⟨resolved, one⟩,
      fun firm => (steadyLeft firm.1).append (steadyRight firm.2), fun r => ?_⟩
    exact List.all_append.trans (sides r)
  -- One side is the constant zero, and the whole was read as zero in its place.
  · have never (s : Scope) : c.selects s = false := by
      rw [zero, Expr.selects_literal, Cell.truth?_integer]
      rfl
    have steady : Steady t c.terms (v ++ w) := by
      subst zero
      exact .of_settles fun _ _ => List.forall_mem_singleton.2 ⟨_, rfl⟩
    have one : c.width = some 1 := by
      subst zero
      rfl
    refine ⟨_, _, c, wholeLeft.joined wholeRight, count, resolve_eq_ok_iff.2 ⟨resolved, one⟩,
      fun _ => steady, fun r => (never _).trans (Eq.trans ?_ (sides r))⟩
    rcases either with rfl | rfl
    · rw [never, Bool.false_and]
    · rw [never, Bool.and_false]

theorem Means.imp (means : Means engine db t a v p firm) (imp : firm' → firm) :
    Means engine db t a v p firm' := by
  obtain ⟨ts, d, e, whole, count, resolved, steady, selects⟩ := means
  exact ⟨ts, d, e, whole, count, resolved, steady ∘ imp, selects⟩

/-- What a text means does not depend on the order in which terms are tested. -/
theorem Means.planned (means : Means engine db t a v p firm) (plan : Plan) :
    Means { engine with plan } db t a v p firm := means

theorem Means.run (means : Means engine db t a v p firm) (holds : firm)
    (found : db.table t.name = .ok t) :
    (filtered t a).run db v engine =
      .ok ⟨t.columnNames, (t.rows.filter p).map fun r => .integer r.id :: r.cells⟩ := by
  obtain ⟨ts, d, e, whole, count, resolved, steady, selects⟩ := means
  have read : (filtered t a).read = .ok ⟨d, Token.parameters ts⟩ := whole.read _ _
  rw [run_eq read found resolved rfl count.symm (steady holds)]
  simp only [selects, arrange, filtered, Option.elim]

theorem stages_of_whole {ts : List Lexeme} {d : Condition.Parsed} {selected : Selected}
    (whole : Condition.Whole a ts d) (known : db.table t.name = .ok t)
    (done : (filtered t a).run db v engine = .ok selected) :
    ∃ e found, (filtered t a).resolve engine db t d = .ok e ∧
      Token.parameters ts = v.length ∧ Select.found engine t e v = .ok found ∧
      selected = ⟨t.columnNames, found.map fun r => .integer r.id :: r.cells⟩ := by
  have read : (filtered t a).read = .ok ⟨d, Token.parameters ts⟩ := whole.read _ _
  obtain ⟨_, _, e, _, found, read', known', resolved, ordered, count, tested, rfl⟩ :=
    stages_of_run done
  obtain rfl := Except.ok.inj (read.symm.trans read')
  obtain rfl := Except.ok.inj (known.symm.trans known')
  cases ordered
  exact ⟨e, found, resolved, count.symm, tested, rfl⟩

theorem Means.eq_of_run {selected : Selected} (means : Means engine db t a v p firm)
    (known : db.table t.name = .ok t) (done : (filtered t a).run db v engine = .ok selected) :
    selected = ⟨t.columnNames, (t.rows.filter p).map fun r => .integer r.id :: r.cells⟩ := by
  obtain ⟨ts, d, e, whole, -, resolved, -, selects⟩ := means
  obtain ⟨e', found, resolved', -, tested, rfl⟩ := stages_of_whole whole known done
  obtain rfl := Except.ok.inj (resolved.symm.trans resolved')
  rw [eq_of_found tested]
  simp only [selects]

/-- A whole condition that selects rows means some rows. It is firm if it selects rows in
whatever order its terms are tested. -/
theorem means_of_run {ts : List Lexeme} {d : Condition.Parsed} {selected : Selected}
    (whole : Condition.Whole a ts d) (known : db.table t.name = .ok t)
    (done : (filtered t a).run db v engine = .ok selected) :
    ∃ p, Means engine db t a v p
      (∀ plan, ∃ selected, (filtered t a).run db v { engine with plan } = .ok selected) := by
  obtain ⟨e, -, resolved, count, -, -⟩ := stages_of_whole whole known done
  refine ⟨_, ts, d, e, whole, count, resolved, fun each => ?_, fun _ => rfl⟩
  refine @steady_of_found t e v engine fun plan => ?_
  obtain ⟨_, done⟩ := each plan
  obtain ⟨e', found, resolved', -, tested, -⟩ := stages_of_whole whole known done
  obtain rfl := Except.ok.inj (resolved.symm.trans resolved')
  exact ⟨found, tested⟩

end Select

end ObsCatalog.Sql
