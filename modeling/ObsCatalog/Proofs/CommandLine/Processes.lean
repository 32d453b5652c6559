import ObsCatalog.Proofs.Catalog.Reopening
import ObsCatalog.Proofs.CommandLine.Run

/-! Commands one after the other on one file.

Each command loads the settings and opens the file for itself. What it prints is what its
operation would have answered on a handle that was there before, and the file ends with the
same content.
-/

set_option autoImplicit false

namespace ObsCatalog.CommandLine

open Handle (On Stores)
open Schema (Stamped)

/-- Command lines with what they find around them. They are run one after the other, each makes
a request on the file at a path, and all succeed. -/
inductive Succeed (d : Deployment) (path : String) :
    CatalogDisk → List (Surroundings × List String) → List String → CatalogDisk → Prop where
  | none (disk : CatalogDisk) : Succeed d path disk [] [] disk
  | more {e : Surroundings} {arguments : List String} {o : Options} {r : Request} {s : Settings}
      {disk written last : CatalogDisk} {rest : List (Surroundings × List String)}
      {outputs : List String} :
      Invocation.read e.dataDirectory arguments = .ok ⟨o, .request r⟩ → o.deployment = d →
      configured o disk = .ok (s, written) → s.locations.filePath e.dataHome d = .ok path →
      (run e arguments disk).1.code = 0 →
      Succeed d path (run e arguments disk).2 rest outputs last →
      Succeed d path disk ((e, arguments) :: rest) ((run e arguments disk).1.output :: outputs) last

/-- What command lines print tells answers to their operations. A command line without an
operation prints nothing. The answers are given without the size of the file. -/
inductive Accounts (d : Deployment) :
    List (Surroundings × List String) → List String → List Store.Answer → Prop where
  | none : Accounts d [] [] []
  | silent {e : Surroundings} {arguments : List String} {o : Options} {r : Request}
      {rest : List (Surroundings × List String)} {outputs : List String}
      {answers : List Store.Answer} :
      Invocation.read e.dataDirectory arguments = .ok ⟨o, .request r⟩ →
      r.operation e.moment d = .ok none → Accounts d rest outputs answers →
      Accounts d ((e, arguments) :: rest) ("" :: outputs) answers
  | answered {e : Surroundings} {arguments : List String} {o : Options} {r : Request}
      {rest : List (Surroundings × List String)} {outputs : List String}
      {answers : List Store.Answer} {op : Operation} {a : op.Result} {output : String} :
      Invocation.read e.dataDirectory arguments = .ok ⟨o, .request r⟩ →
      r.operation e.moment d = .ok (some op) → op.Tells a output → Accounts d rest outputs answers →
      Accounts d ((e, arguments) :: rest) (output :: outputs)
        (⟨op, op.unsized (.ok a)⟩ :: answers)

variable {d : Deployment} {path : String} {place : Place} {db : Sql.Database} {h : Handle}
  {e : Surroundings} {arguments : List String} {o : Options} {r : Request}
  {disk opened after last : CatalogDisk} {output : String}
  {rest : List (Surroundings × List String)} {outputs : List String}

theorem Succeed.head (succeed : Succeed d path disk ((e, arguments) :: rest) outputs last) :
    (run e arguments disk).1.code = 0 ∧
      ∃ more, outputs = (run e arguments disk).1.output :: more ∧
        Succeed d path (run e arguments disk).2 rest more last := by
  cases succeed with
  | more _ _ _ _ done others => exact ⟨done, _, rfl, others⟩

/-- A request that succeeds prints what its operation answers, and leaves its effect in the
file. -/
theorem make_on (on : h.On opened d path place db)
    (done : (make e.moment h r opened).result = (.ok output, after)) :
    (r.operation e.moment d = .ok none ∧ output = "" ∧ after = opened) ∨
      ∃ (op : Operation) (a : op.Result), r.operation e.moment d = .ok (some op) ∧
        (op.effect d db).1 = op.unsized (.ok a) ∧ op.Tells a output ∧
        Stores after path place (op.effect d db).2 := by
  rw [result_make, on.deployment] at done
  cases asked : r.operation e.moment d with
  | error fault => simp [asked] at done
  | ok found =>
    cases found with
    | none =>
      simp only [asked, Prod.mk.injEq, Except.ok.injEq] at done
      exact .inl ⟨rfl, done.1.symm, done.2.symm⟩
    | some op =>
      obtain ⟨answered, next, -⟩ := on.perform op
      simp only [asked, Prod.mk.injEq] at done
      obtain ⟨printed, rfl⟩ := done
      cases result : (h.perform (op.action opened) opened).1 with
      | error fault => simp [result, Except.mapError, Except.map] at printed
      | ok a =>
        rw [result] at printed answered
        cases printed
        exact .inr ⟨op, a, rfl, answered.symm, op.tells_shown a, next.stores⟩

/-- One command more before others whose outputs are accounted for. -/
theorem accounts_more (on : h.On opened d path place db) (stamped : Stamped db d)
    (read : Invocation.read e.dataDirectory arguments = .ok ⟨o, .request r⟩)
    (done : (make e.moment h r opened).result = (.ok output, after))
    (others : ∀ next, Stores after path place next → Stamped next d →
      ∃ ops, Accounts d rest outputs (Operation.effects d next ops).1 ∧
        Stores last path place (Operation.effects d next ops).2) :
    ∃ ops, Accounts d ((e, arguments) :: rest) (output :: outputs)
        (Operation.effects d db ops).1 ∧
      Stores last path place (Operation.effects d db ops).2 := by
  rcases make_on on done with ⟨silent, rfl, rfl⟩ | ⟨op, a, asked, answered, told, stores⟩
  · obtain ⟨ops, accounts, stores⟩ := others db on.stores stamped
    exact ⟨ops, .silent read silent accounts, stores⟩
  · obtain ⟨ops, accounts, last⟩ := others _ stores (stamped.effect op)
    refine ⟨op :: ops, ?_, last⟩
    have accounted : Accounts d ((e, arguments) :: rest) (output :: outputs)
        (⟨op, op.unsized (.ok a)⟩ :: (Operation.effects d (op.effect d db).2 ops).1) :=
      .answered read asked told accounts
    rw [← answered] at accounted
    exact accounted

theorem Succeed.accounts {commands : List (Surroundings × List String)}
    (succeed : Succeed d path disk commands outputs last) (stores : Stores disk path place db)
    (stamped : Stamped db d) :
    ∃ ops, Accounts d commands outputs (Operation.effects d db ops).1 ∧
      Stores last path place (Operation.effects d db ops).2 := by
  -- The induction is on the commands, over whatever database the earlier ones have left.
  induction succeed generalizing db with
  | none disk => exact ⟨[], .none, stores⟩
  | @more e arguments o r s disk written last rest outputs read own loaded named done _ ih =>
    -- The command finds the database that is there and has it stamped already.
    obtain ⟨s', written', h, opening, opened, loaded', opens, made⟩ := stages_of_run read done
    obtain ⟨rfl, rfl⟩ := Prod.mk.inj (Except.ok.inj (loaded'.symm.trans loaded))
    subst own
    obtain ⟨g, reopens, on⟩ :=
      (stores.extends (extends_configured loaded)).openFile stamped named e.now
    obtain ⟨same, rfl⟩ := Prod.mk.inj (opens.symm.trans reopens)
    cases same
    exact accounts_more on stamped read made fun next => ih

end ObsCatalog.CommandLine
