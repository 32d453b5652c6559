import ObsCatalog.Proofs.Sql.Database
import ObsCatalog.Proofs.Sql.Expr

/-! Conditions that do not fail.

The terms of a condition may be tested in any order, and a term that is not tested cannot
fail. Where none of them fails on the rows that matter, the order makes no difference; and if
the tests succeed in every order, then no term fails.
-/

set_option autoImplicit false

namespace ObsCatalog.Sql

namespace Expr

variable {s s' : Scope} {e : Term} {es : List Term} {passes : Bool}

/-- A test of the condition does not fail. -/
def Settles (s : Scope) (e : Term) : Prop := ∃ truth, (e.eval s).truth = .ok truth

theorem hold_eq (settles : ∀ e ∈ es, Settles s e) : hold s es = .ok (es.all (isTrue s)) := by
  induction es with
  | nil => rfl
  | cons e es ih =>
    obtain ⟨⟨truth, known⟩, others⟩ := List.forall_mem_cons.1 settles
    rcases truth with _ | _ | _ <;>
      simp [hold, isTrue, known, ih others, bind, Except.bind, pure, Except.pure]

theorem all_of_hold (done : hold s es = .ok passes) : passes = es.all (isTrue s) := by
  induction es with
  | nil =>
    cases done
    rfl
  | cons e es ih =>
    obtain ⟨truth, known, rest⟩ := ok_of_bind done
    rcases truth with _ | _ | _
    · cases rest
      simp [isTrue, known]
    · cases rest
      simp [isTrue, known]
    · rw [List.all_cons, isTrue, known, ih rest]
      rfl

theorem settles_of_hold (done : hold s (e :: es) = .ok passes) : Settles s e := by
  obtain ⟨truth, known, -⟩ := ok_of_bind done
  exact ⟨truth, known⟩

mutual

theorem eval_of_readsOnly {columns : ColumnRef → Bool} {functions : Function → Bool}
    (same : ∀ c, columns c → s'.column c = s.column c)
    (given : ∀ i, s'.parameter i = s.parameter i) :
    ∀ e : Term, e.readsOnly columns functions → e.eval s' = e.eval s
  | .literal _, _ => rfl
  | .parameter i, _ => congrArg Outcome.ofCell (given i)
  | .column c, reads => by simp only [eval, same c reads]
  | .apply _ operands, reads => by
    simp only [eval, evalList_of_readOnly same given operands reads]
  | .call _ operands, reads => by
    simp only [eval, evalList_of_readOnly same given operands (Bool.and_eq_true_iff.1 reads).2]

theorem evalList_of_readOnly {columns : ColumnRef → Bool} {functions : Function → Bool}
    (same : ∀ c, columns c → s'.column c = s.column c)
    (given : ∀ i, s'.parameter i = s.parameter i) :
    ∀ es : List Term, readOnly columns functions es → evalList s' es = evalList s es
  | [], _ => rfl
  | e :: rest, reads => by
    obtain ⟨first, others⟩ := Bool.and_eq_true_iff.1 reads
    simp only [evalList, eval_of_readsOnly same given e first,
      evalList_of_readOnly same given rest others]

end

theorem eval_of_isConstant {id id' : Int64} {cells cells' parameters : List Cell}
    (constant : e.isConstant) :
    e.eval ⟨id', cells', parameters⟩ = e.eval ⟨id, cells, parameters⟩ :=
  eval_of_readsOnly (fun _ none => by cases none) (fun i => by cases i <;> rfl) e constant

theorem isTrue_of_isConstant {id id' : Int64} {cells cells' parameters : List Cell}
    (constant : e.isConstant) :
    isTrue ⟨id', cells', parameters⟩ e = isTrue ⟨id, cells, parameters⟩ e := by
  rw [isTrue, isTrue, eval_of_isConstant constant]

end Expr

open ObsCatalog.Sql.Expr (Settles hold)

namespace Select

variable {t : Table} {e : Term} {es fs : List Term} {parameters values : List Cell}
  {engine : Engine} {found rows : List StoredRow}

/-! Rows that are tested one after the other. -/

theorem exists_picked {test : StoredRow → Except Fault Bool}
    (tests : ∀ r ∈ rows, ∃ passes, test r = .ok passes) :
    ∃ found, picked test rows = .ok found := by
  induction rows with
  | nil => exact ⟨[], rfl⟩
  | cons r rows ih =>
    obtain ⟨⟨passes, tested⟩, others⟩ := List.forall_mem_cons.1 tests
    obtain ⟨found, rest⟩ := ih others
    exact ⟨_, by simp only [picked, tested, rest]; rfl⟩

theorem of_picked {test : StoredRow → Except Fault Bool} {passes : StoredRow → Bool}
    (done : picked test rows = .ok found) (tests : ∀ r b, test r = .ok b → b = passes r) :
    found = rows.filter passes ∧ ∀ r ∈ rows, test r = .ok (passes r) := by
  induction rows generalizing found with
  | nil =>
    cases done
    exact ⟨rfl, nofun⟩
  | cons r rows ih =>
    obtain ⟨b, tested, done⟩ := ok_of_bind done
    obtain ⟨others, rest, done⟩ := ok_of_bind done
    obtain ⟨rfl, all⟩ := ih rest
    obtain rfl := tests r b tested
    refine ⟨?_, List.forall_mem_cons.2 ⟨tested, all⟩⟩
    cases done
    rw [List.filter_cons]

theorem eq_of_found (done : Select.found engine t e parameters = .ok found) :
    found = t.rows.filter fun r => e.selects ⟨r.id, r.cells, parameters⟩ := by
  have perm := engine.plan.perm t e.terms
  obtain ⟨holds, constants, done⟩ := ok_of_bind done
  have all := Expr.all_of_hold constants
  cases holds with
  | true =>
    refine (of_picked done fun r b tested => ?_).1
    rw [Expr.all_of_hold tested, Expr.selects, perm.all_eq]
  | false =>
    -- A term that depends on no row and does not hold keeps every row from being selected.
    obtain ⟨e', member, fails⟩ := List.all_eq_false.1 all.symm
    obtain ⟨member, constant⟩ := List.mem_filter.1 member
    cases done
    refine (List.filter_eq_nil_iff.2 fun r _ selects => fails ?_).symm
    have holds := List.all_eq_true.1 selects e' (perm.subset member)
    rwa [Expr.isTrue_of_isConstant constant] at holds

theorem subset_of_found (done : Select.found engine t e parameters = .ok found) :
    found ⊆ t.rows := by
  rw [eq_of_found done]
  exact List.filter_subset_self _

/-- The terms that depend on no row do not fail, and if all of them hold, no term fails on
any row. -/
structure Steady (t : Table) (es : List Term) (parameters : List Cell) : Prop where
  constants : ∀ e ∈ es, e.isConstant → Settles ⟨0, [], parameters⟩ e
  rows : (∀ e ∈ es, e.isConstant → Expr.isTrue ⟨0, [], parameters⟩ e) →
    ∀ r ∈ t.rows, ∀ e ∈ es, Settles ⟨r.id, r.cells, parameters⟩ e

namespace Steady

theorem of_settles (settles : ∀ s, s.parameters = parameters → ∀ e ∈ es, Settles s e) :
    Steady t es parameters where
  constants e member _ := settles _ rfl e member
  rows _ _ _ e member := settles _ rfl e member

theorem append (left : Steady t es parameters) (right : Steady t fs parameters) :
    Steady t (es ++ fs) parameters where
  constants e member constant :=
    (List.mem_append.1 member).elim (left.constants e · constant) (right.constants e · constant)
  rows holds r stored e member := by
    obtain ⟨holdsLeft, holdsRight⟩ := List.forall_mem_append.1 holds
    exact (List.mem_append.1 member).elim (left.rows holdsLeft r stored e)
      (right.rows holdsRight r stored e)

theorem renamed {index : Nat → Nat} (steady : Steady t es parameters)
    (agrees : ∀ id cells, Expr.Agrees index ⟨id, cells, parameters⟩ ⟨id, cells, values⟩) :
    Steady t (es.map (Expr.renamed id id index)) values := by
  have constant (e : Term) : (e.renamed id id index).isConstant = e.isConstant :=
    Expr.readsOnly_renamed id id index (fun _ => rfl) (fun _ => rfl) e
  have same (key : Int64) (cells : List Cell) (e : Term) :
      (e.renamed id id index).eval ⟨key, cells, values⟩ = e.eval ⟨key, cells, parameters⟩ :=
    Expr.eval_renamed (agrees key cells) e
  constructor
  · rw [List.forall_mem_map]
    intro e member settled
    rw [Settles, same]
    exact steady.constants e member (constant e ▸ settled)
  · intro holds r stored
    rw [List.forall_mem_map] at holds ⊢
    intro e member
    rw [Settles, same]
    refine steady.rows (fun e member settled => ?_) r stored e member
    have holds := holds e member ((constant e).trans settled)
    rwa [Expr.isTrue, same] at holds

/-- Rows are found in whatever order the terms are tested. -/
theorem exists_found (steady : Steady t e.terms parameters) (engine : Engine) :
    ∃ found, Select.found engine t e parameters = .ok found := by
  have perm := engine.plan.perm t e.terms
  obtain ⟨terms, ordered⟩ : ∃ terms, terms = engine.plan.order t e.terms := ⟨_, rfl⟩
  rw [← ordered] at perm
  -- The terms without a row come first; if one of them is not true, no row is looked at.
  have constants : hold ⟨0, [], parameters⟩ (terms.filter (·.isConstant)) =
      .ok ((terms.filter (·.isConstant)).all (Expr.isTrue ⟨0, [], parameters⟩)) := by
    refine Expr.hold_eq fun e member => ?_
    obtain ⟨member, constant⟩ := List.mem_filter.1 member
    exact steady.constants e (perm.subset member) constant
  rw [Select.found, ← ordered, constants]
  cases all : (terms.filter (·.isConstant)).all (Expr.isTrue ⟨0, [], parameters⟩) with
  | false => exact ⟨[], rfl⟩
  | true =>
    have holds : ∀ e ∈ terms, e.isConstant → Expr.isTrue ⟨0, [], parameters⟩ e :=
      fun e member constant => List.all_eq_true.1 all e (List.mem_filter.2 ⟨member, constant⟩)
    refine exists_picked fun r stored => ⟨_, Expr.hold_eq fun e member => ?_⟩
    exact steady.rows (fun e member => holds e (perm.symm.subset member)) r stored e
      (perm.subset member)

theorem found_eq (steady : Steady t e.terms parameters) (engine : Engine) :
    Select.found engine t e parameters =
      .ok (t.rows.filter fun r => e.selects ⟨r.id, r.cells, parameters⟩) := by
  obtain ⟨found, done⟩ := steady.exists_found engine
  rw [done, eq_of_found done]

end Steady

def turned (n : Nat) : Plan where
  order _ es := es.drop n ++ es.take n
  perm _ es := List.perm_append_comm.trans (.of_eq (List.take_append_drop n es))

/-- Terms that can be tested in every order do not fail. -/
theorem steady_of_found (each : ∀ plan, ∃ found,
    Select.found { engine with plan } t e parameters = .ok found) :
    Steady t e.terms parameters := by
  -- Every term comes first in one of the orders.
  have first : ∀ e' ∈ e.terms, ∃ plan others, Plan.order plan t e.terms = e' :: others := by
    intro e' member
    obtain ⟨before, after, split⟩ := List.append_of_mem member
    refine ⟨turned before.length, after ++ before, ?_⟩
    simp [turned, split]
  have constants : ∀ e' ∈ e.terms, e'.isConstant → Settles ⟨0, [], parameters⟩ e' := by
    intro e' member constant
    obtain ⟨plan, others, order⟩ := first e' member
    obtain ⟨found, done⟩ := each plan
    obtain ⟨holds, tested, -⟩ := ok_of_bind done
    simp only [order, List.filter_cons_of_pos constant] at tested
    exact Expr.settles_of_hold tested
  refine ⟨constants, fun holds r stored e' member => ?_⟩
  obtain ⟨plan, others, order⟩ := first e' member
  obtain ⟨found, done⟩ := each plan
  have perm := plan.perm t e.terms
  -- All terms without a row hold, and the rows are reached.
  have all :
      hold ⟨0, [], parameters⟩ ((plan.order t e.terms).filter (·.isConstant)) = .ok true := by
    rw [Expr.hold_eq fun e' member => ?_]
    · refine congrArg Except.ok (List.all_eq_true.2 fun e' member => ?_)
      obtain ⟨member, constant⟩ := List.mem_filter.1 member
      exact holds e' (perm.subset member) constant
    · obtain ⟨member, constant⟩ := List.mem_filter.1 member
      exact constants e' (perm.subset member) constant
  obtain ⟨_, tested, done⟩ := ok_of_bind done
  obtain rfl := Except.ok.inj (all.symm.trans tested)
  have tested := (of_picked done fun r b tested => Expr.all_of_hold tested).2 r stored
  rw [order] at tested
  exact Expr.settles_of_hold tested

end Select

end ObsCatalog.Sql
