import ObsCatalog.Sql.Operation

/-! Expressions.

An expression is built from constants, parameters, columns, operations and calls. What
stands for a column and for what is called is left open, so that the same tree holds
names before they are resolved, and columns and functions afterwards.
-/

set_option autoImplicit false

namespace ObsCatalog.Sql

/-- An expression whose columns are of type `ν` and whose functions are of type `φ`. -/
inductive Expr (ν φ : Type) where
  | literal (c : Cell)
  | parameter (index : Nat)
  | column (name : ν)
  | apply (o : Operation) (operands : List (Expr ν φ))
  | call (f : φ) (operands : List (Expr ν φ))

/-- A column of a table: its place after the key, or the key, and its affinity. -/
structure ColumnRef where
  place : Option Nat
  affinity : Affinity
  deriving DecidableEq, Repr

/-- What an engine makes of operands: how many values, of how many values each, and which. -/
structure Function where
  width : Nat
  admits : List Nat → Bool
  apply : List Outcome → Outcome

abbrev Term := Expr ColumnRef Function

structure Scope where
  id : Int64
  cells : List Cell
  parameters : List Cell

namespace Scope

def column (s : Scope) (c : ColumnRef) : Cell :=
  match c.place with
  | none => .integer s.id
  | some i => s.cells.getD i .null

def parameter (s : Scope) (index : Nat) : Cell :=
  match index with
  | 0 => .null
  | i + 1 => s.parameters.getD i .null

end Scope

namespace Expr

variable {ν φ : Type}

@[match_pattern]
abbrev and (a b : Expr ν φ) : Expr ν φ := .apply .and [a, b]

@[match_pattern]
abbrev compare (c : Comparison) (a b : Expr ν φ) : Expr ν φ := .apply (.compare c) [a, b]

mutual

def eval (s : Scope) : Term → Outcome
  | .literal c => .ofCell c
  | .parameter index => .ofCell (s.parameter index)
  | .column c => .ofScalar { Scalar.ofValue (.ok (s.column c)) with affinity := some c.affinity }
  | .apply o operands => o.apply (evalList s operands)
  | .call f operands => f.apply (evalList s operands)

def evalList (s : Scope) : List Term → List Outcome
  | [] => []
  | e :: rest => eval s e :: evalList s rest

end

mutual

/-- The count of values, where all operations take the rows that they are given. -/
def width : Term → Option Nat
  | .apply o operands => (widths operands).bind o.width
  | .call f operands => (widths operands).bind fun ns => if f.admits ns then some f.width else none
  | _ => some 1

def widths : List Term → Option (List Nat)
  | [] => some []
  | e :: rest => do
    let n ← width e
    let ns ← widths rest
    pure (n :: ns)

end

mutual

def readsOnly (columns : ν → Bool) (functions : φ → Bool) : Expr ν φ → Bool
  | .column n => columns n
  | .apply _ operands => readOnly columns functions operands
  | .call f operands => functions f && readOnly columns functions operands
  | _ => true

def readOnly (columns : ν → Bool) (functions : φ → Bool) : List (Expr ν φ) → Bool
  | [] => true
  | e :: rest => readsOnly columns functions e && readOnly columns functions rest

end

def isConstant (e : Term) : Bool := e.readsOnly (fun _ => false) fun _ => true

/-- The expressions that all have to hold for a condition to hold. -/
def terms : Term → List Term
  | .apply .and [a, b] => terms a ++ terms b
  | e => [e]

def isTrue (s : Scope) (e : Term) : Bool :=
  match (e.eval s).truth with
  | .ok (some true) => true
  | _ => false

def selects (e : Term) (s : Scope) : Bool := e.terms.all (isTrue s)

/-- Terms are tested one after the other, up to the first that is not true. -/
def hold (s : Scope) : List Term → Except Fault Bool
  | [] => .ok true
  | e :: rest => do
    match ← (e.eval s).truth with
    | some true => hold s rest
    | _ => pure false

end Expr

end ObsCatalog.Sql
