import ObsCatalog.Catalog.Fault
import ObsCatalog.Catalog.Value

/-! Filters.

A filter is a condition with a value for each of its placeholders. Two filters can be
joined when both have anonymous placeholders only: their values then stay in line with
the placeholders of the joined condition.
-/

set_option autoImplicit false

namespace ObsCatalog

structure Filter where
  clause : String
  params : List Value

namespace Filter

def isColumnStart (c : Char) : Bool := c.isAlpha || c == '_'

def isColumnChar (c : Char) : Bool := c.isAlphanum || c == '_'

def isColumnName (column : String) : Bool :=
  match column.toList with
  | [] => false
  | c :: rest => isColumnStart c && rest.all isColumnChar

def eq (column : String) (value : Value) : Except CatalogFault Filter :=
  if isColumnName column then .ok ⟨column ++ " = ?", [value]⟩
  else .error (.invalidFilter ("'" ++ column ++ "' is not a column name"))

/-- The mark begins a placeholder with a number or a name if this character follows. -/
def beginsPositional (mark next : Char) : Bool :=
  if mark = '?' then next.isDigit
  else (mark == ':' || mark == '@' || mark == '$') && (next.isAlpha || next == '_')

/-- A placeholder with a number or a name stands outside of quotes. The state is the
quote that is open, if one is. -/
def positionalFrom : Option Char → List Char → Bool
  | _, [] => false
  | some quote, c :: rest => positionalFrom (if c = quote then none else some quote) rest
  | none, c :: rest =>
    if c = '\'' ∨ c = '"' then positionalFrom (some c) rest
    else (rest.head?.elim false (beginsPositional c)) || positionalFrom none rest

def hasPositional (clause : String) : Bool := positionalFrom none clause.toList

def checkJoinable (f : Filter) : Except CatalogFault Unit :=
  if hasPositional f.clause then
    .error (.invalidFilter
      ("cannot combine '" ++ f.clause ++ "': only anonymous '?' placeholders can be joined"))
  else .ok ()

def and (a b : Filter) : Except CatalogFault Filter := do
  a.checkJoinable
  b.checkJoinable
  pure ⟨"(" ++ a.clause ++ ") AND (" ++ b.clause ++ ")", a.params ++ b.params⟩

def all : List Filter → Except CatalogFault (Option Filter)
  | [] => .ok none
  | f :: rest => some <$> rest.foldlM and f

end Filter

end ObsCatalog
