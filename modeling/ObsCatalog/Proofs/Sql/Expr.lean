import ObsCatalog.Sql.Select

/-! Expressions with other names.

An expression keeps its value when its names are replaced by others that stand for the same
columns and functions, and its parameters by others that have the same values. It depends on
nothing else of a row than the values of its columns.
-/

set_option autoImplicit false

namespace ObsCatalog.Sql

variable {ν μ φ ψ ε δ : Type}

/-- Where one computation succeeds, another one does with a result that corresponds. -/
def Mirrors {α β : Type} (f : α → β) (x : Except ε α) (y : Except δ β) : Prop :=
  ∀ a, x = .ok a → y = .ok (f a)

theorem Mirrors.pure {α β : Type} {f : α → β} {a : α} :
    Mirrors f (Pure.pure a : Except ε α) (Pure.pure (f a) : Except δ β) := by
  rintro _ ⟨⟩
  rfl

theorem Mirrors.bind {α β γ κ : Type} {f : α → β} {g : γ → κ} {x : Except ε α} {y : Except δ β}
    {k : α → Except ε γ} {l : β → Except δ κ} (first : Mirrors f x y)
    (next : ∀ a, Mirrors g (k a) (l (f a))) : Mirrors g (x >>= k) (y >>= l) := by
  intro c done
  cases x with
  | error fault => cases done
  | ok a =>
    rw [first a rfl]
    exact next a c done

namespace Expr

mutual

def renamed (name : ν → μ) (call : φ → ψ) (index : Nat → Nat) : Expr ν φ → Expr μ ψ
  | .literal c => .literal c
  | .parameter i => .parameter (index i)
  | .column n => .column (name n)
  | .apply o operands => .apply o (renamedList name call index operands)
  | .call f operands => .call (call f) (renamedList name call index operands)

def renamedList (name : ν → μ) (call : φ → ψ) (index : Nat → Nat) :
    List (Expr ν φ) → List (Expr μ ψ)
  | [] => []
  | e :: rest => renamed name call index e :: renamedList name call index rest

end

section Names

variable (name : ν → μ) (call : φ → ψ) (index : Nat → Nat)

theorem renamedList_eq (es : List (Expr ν φ)) :
    renamedList name call index es = es.map (renamed name call index) := by
  induction es with
  | nil => rfl
  | cons e es ih => rw [renamedList, ih, List.map_cons]

theorem length_renamedList (es : List (Expr ν φ)) :
    (renamedList name call index es).length = es.length := by
  rw [renamedList_eq, List.length_map]

theorem terms_renamed (call : Function → Function) (e : Term) :
    (e.renamed id call index).terms = e.terms.map (renamed id call index) := by
  fun_induction terms e with
  | case1 a b left right => simp only [renamed, renamedList, terms, left, right, List.map_append]
  | case2 e single =>
    refine terms.eq_2 _ fun a b both => ?_
    cases e with
    | apply o operands =>
      obtain ⟨rfl, same⟩ := Expr.apply.inj both
      rcases operands with _ | ⟨x, _ | ⟨y, _ | _⟩⟩ <;>
        first
          | exact single _ _ rfl
          | cases same
    | _ => cases both

mutual

theorem readsOnly_renamed {p : ν → Bool} {q : φ → Bool} {p' : μ → Bool} {q' : ψ → Bool}
    (columns : ∀ n, p' (name n) = p n) (functions : ∀ f, q' (call f) = q f) : ∀ e : Expr ν φ,
    (e.renamed name call index).readsOnly p' q' = e.readsOnly p q
  | .literal _ => rfl
  | .parameter _ => rfl
  | .column n => columns n
  | .apply _ operands => by
    simp only [renamed, readsOnly, readOnly_renamed columns functions operands]
  | .call f operands => by
    simp only [renamed, readsOnly, functions f, readOnly_renamed columns functions operands]

theorem readOnly_renamed {p : ν → Bool} {q : φ → Bool} {p' : μ → Bool} {q' : ψ → Bool}
    (columns : ∀ n, p' (name n) = p n) (functions : ∀ f, q' (call f) = q f) :
    ∀ es : List (Expr ν φ),
    readOnly p' q' (renamedList name call index es) = readOnly p q es
  | [] => rfl
  | e :: rest => by
    simp only [renamedList, readOnly, readsOnly_renamed columns functions e,
      readOnly_renamed columns functions rest]

end

end Names

/-! Names that stand for the same columns and functions. -/

variable {names : ν → Except ε Term} {names' : μ → Except δ Term}
  {calls : φ → List Term → Except ε Term} {calls' : ψ → List Term → Except δ Term}
  {name : ν → μ} {call : φ → ψ} {index : Nat → Nat}

mutual

theorem resolved_renamed (columns : ∀ n, Mirrors (renamed id id index) (names n) (names' (name n)))
    (functions : ∀ f es, Mirrors (renamed id id index) (calls f es)
      (calls' (call f) (renamedList id id index es))) :
    ∀ e, Mirrors (renamed id id index) (resolved names calls e)
      (resolved names' calls' (renamed name call index e))
  | .literal _ => .pure
  | .parameter _ => .pure
  | .column n => columns n
  | .apply _ operands => (resolvedList_renamed columns functions operands).bind fun _ => .pure
  | .call f operands =>
    (resolvedList_renamed columns functions operands).bind fun es => functions f es

theorem resolvedList_renamed
    (columns : ∀ n, Mirrors (renamed id id index) (names n) (names' (name n)))
    (functions : ∀ f es, Mirrors (renamed id id index) (calls f es)
      (calls' (call f) (renamedList id id index es))) :
    ∀ es, Mirrors (renamedList id id index) (resolvedList names calls es)
      (resolvedList names' calls' (renamedList name call index es))
  | [] => .pure
  | e :: rest => (resolved_renamed columns functions e).bind fun _ =>
      (resolvedList_renamed columns functions rest).bind fun _ => .pure

end

/-- The values that an expression reads are the ones that it reads with other indices. -/
structure Agrees (index : Nat → Nat) (s s' : Scope) : Prop where
  column : ∀ c, s'.column c = s.column c
  parameter : ∀ i, s'.parameter (index i) = s.parameter i

mutual

theorem eval_renamed {s s' : Scope} (agrees : Agrees index s s') :
    ∀ e : Term, (e.renamed id id index).eval s' = e.eval s
  | .literal _ => rfl
  | .parameter i => congrArg Outcome.ofCell (agrees.parameter i)
  | .column c => by simp only [renamed, eval, id, agrees.column c]
  | .apply _ operands => by simp only [renamed, eval, evalList_renamed agrees operands]
  | .call _ operands => by simp only [renamed, eval, id, evalList_renamed agrees operands]

theorem evalList_renamed {s s' : Scope} (agrees : Agrees index s s') : ∀ es : List Term,
    evalList s' (renamedList id id index es) = evalList s es
  | [] => rfl
  | e :: rest => by
    simp only [renamedList, evalList, eval_renamed agrees e, evalList_renamed agrees rest]

end

theorem selects_renamed {s s' : Scope} (agrees : Agrees index s s') (e : Term) :
    (e.renamed id id index).selects s' = e.selects s := by
  have same (e : Term) : isTrue s' (e.renamed id id index) = isTrue s e := by
    rw [isTrue, isTrue, eval_renamed agrees]
  simp only [selects, terms_renamed, List.all_map, Function.comp_def, same]

mutual

theorem width_renamed (index : Nat → Nat) : ∀ e : Term, (e.renamed id id index).width = e.width
  | .literal _ => rfl
  | .parameter _ => rfl
  | .column _ => rfl
  | .apply _ operands => by simp only [renamed, width, widths_renamed index operands]
  | .call _ operands => by simp only [renamed, width, id, widths_renamed index operands]

theorem widths_renamed (index : Nat → Nat) : ∀ es : List Term,
    widths (renamedList id id index es) = widths es
  | [] => rfl
  | e :: rest => by
    simp only [renamedList, widths, width_renamed index e, widths_renamed index rest]

end

end Expr

end ObsCatalog.Sql
