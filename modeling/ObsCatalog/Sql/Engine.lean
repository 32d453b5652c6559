import ObsCatalog.Sql.Database
import ObsCatalog.Sql.Function
import ObsCatalog.Sql.Token

/-! Engines.

An engine brings along what a condition uses besides its own operations: functions, answers
to the queries within it, and a plan. The condition holds where all its terms hold, and the
plan says in which order they are tested. It makes no difference to what is selected, but
the tests end at the first term that is not true, and a term that is not tested cannot fail.
-/

set_option autoImplicit false

namespace ObsCatalog.Sql

/-- The order in which the terms of a condition on a table are tested. -/
structure Plan where
  order : Table → List Term → List Term
  perm (t : Table) (terms : List Term) : (order t terms).Perm terms

namespace Plan

def equated? : Term → Option ColumnRef
  | .compare .equal (.column c) e => if e.isConstant then some c else none
  | .compare .equal e (.column c) => if e.isConstant then some c else none
  | _ => none

def isIndexed (t : Table) (c : ColumnRef) : Bool :=
  c.place.any fun i => (t.columns[i]?).any (·.index.isSome)

/-- The column by which rows are looked up: the key, or else one with an index. -/
def lookup? (t : Table) (terms : List Term) : Option ColumnRef :=
  let equated := terms.filterMap equated?
  (equated.find? fun c => c.place.isNone) <|> (equated.find? (isIndexed t))

/-- The term by which rows are looked up comes first, and then those that an index answers
together with the key. -/
def rank (lookup : Option ColumnRef) (e : Term) : Nat :=
  match lookup with
  | none => 2
  | some c =>
    if (equated? e).any (·.place == c.place) then 0
    else if c.place.isSome &&
        e.readsOnly (fun d => d.place.isNone || d.place == c.place) (fun _ => true) then 1
    else 2

def lookupFirst : Plan where
  order t terms :=
    let rank := rank (lookup? t terms)
    terms.filter (rank · == 0) ++ (terms.filter (rank · != 0)).filter (rank · == 1) ++
      (terms.filter (rank · != 0)).filter (rank · != 1)
  perm t terms := by
    generalize lookup? t terms = lookup
    have others := List.filter_append_perm (rank lookup · == 1)
      (terms.filter (rank lookup · != 0))
    rw [List.append_assoc]
    exact (others.append_left _).trans (List.filter_append_perm (rank lookup · == 0) terms)

end Plan

/-- What is asked of a query within a condition: its value, whether it has rows, or whether a
value is among its rows. -/
inductive QueryForm where
  | value
  | exists
  | member (negated : Bool)
  deriving DecidableEq, Repr

/-- A token of a query with its spelling and its distance from the first one. Which parameter
it is has been left out. -/
structure Word where
  token : Token
  spelling : String
  distance : Nat

/-- What is wrong with a query, at a distance from its first token or without a place. -/
inductive QueryFault where
  | located (problem : Problem) (distance : Nat)
  | plain (fault : Fault)

namespace QueryFault

def fault (located : Problem → Nat → Fault) (offset : Nat) : QueryFault → Fault
  | .located problem distance => located problem (offset + distance)
  | .plain fault => fault

end QueryFault

/-- What an engine brings along. The function for a query takes what is compared with its
rows, the values of its parameters, and those of all columns of the table. -/
structure Engine where
  function : String → Nat → Except Problem Function
  query : Database → Table → QueryForm → List Word → Except QueryFault Function
  plan : Plan

namespace Engine

/-- An engine without answers to queries. -/
def standard : Engine where
  function := Function.find
  query _ _ _ words := .error (.located (.unexpected ((words.head?.map (·.spelling)).getD "")) 0)
  plan := .lookupFirst

end Engine

end ObsCatalog.Sql
