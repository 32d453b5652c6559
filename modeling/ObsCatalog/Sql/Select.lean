import ObsCatalog.Sql.Condition
import ObsCatalog.Sql.Database

/-! Selecting rows.

A selection takes all columns of the rows of one table for which a condition is true.
Its names are resolved against the table before any row is looked at.
-/

set_option autoImplicit false

namespace ObsCatalog.Sql

structure Select where
  table : String
  condition : Option String
  /-- The column by which rows are ordered. -/
  orderBy : Option String
  limit : Option Nat

namespace Select

def heading (s : Select) : String := "SELECT * FROM " ++ s.table

def lead (s : Select) : String := s.heading ++ " WHERE "

def orderLead (s : Select) : String :=
  match s.condition with
  | some condition => s.lead ++ condition ++ " ORDER BY "
  | none => s.heading ++ " ORDER BY "

def statement (s : Select) : String :=
  let selected :=
    match s.condition with
    | some condition => s.lead ++ condition
    | none => s.heading
  let ordered :=
    match s.orderBy with
    | some column => selected ++ " ORDER BY " ++ column
    | none => selected
  match s.limit with
  | some n => ordered ++ " LIMIT " ++ Text.integerText n
  | none => ordered

end Select

namespace Mention

def place : Mention → Nat
  | .column _ _ _ offset => offset
  | .qualified _ _ _ offset => offset

def columnOf (t : Table) (name : String) : Option ColumnRef :=
  if sameName name t.key then some ⟨none, .integer⟩
  else
    match t.columns.findIdx? fun column => sameName name column.name with
    | some i => some ⟨some i, (t.columns[i]?).elim .none (·.affinity)⟩
    | none => if Table.isRowIdName name then some ⟨none, .integer⟩ else none

def schemaName : String := "main"

/-- The expression that a name stands for. A name in double quotes that no column has
is a text, and the names of the truth values stand for one and zero. -/
def resolve (t : Table) : Mention → Except Problem Term
  | .qualified schema table name _ =>
    match if sameName schema schemaName && sameName table t.name then columnOf t name else none with
    | some c => .ok (.column c)
    | none => .error (.noColumn (schema ++ "." ++ table ++ "." ++ name))
  | .column (some table) name _ _ =>
    match if sameName table t.name then columnOf t name else none with
    | some c => .ok (.column c)
    | none => .error (.noColumn (table ++ "." ++ name))
  | .column none name double _ =>
    match columnOf t name with
    | some c => .ok (.column c)
    | none =>
      if double then .ok (.literal (.text name))
      else if sameName name "true" then .ok (.literal (.ofBool true))
      else if sameName name "false" then .ok (.literal (.ofBool false))
      else .error (.noColumn name)

end Mention

def Table.columnRefs (t : Table) : List ColumnRef :=
  ⟨none, .integer⟩ :: t.columns.mapIdx fun i column => ⟨some i, column.affinity⟩

namespace Call

/-- The function that is called, or what is wrong with the call and where. A query gets the
values of all columns after its own operands. -/
def resolve (engine : Engine) (db : Database) (t : Table) (located : Problem → Nat → Fault) :
    Call → List Term → Except Fault Term
  | .function name offset, operands =>
    match engine.function name operands.length with
    | .ok f => .ok (.call f operands)
    | .error problem => .error (located problem offset)
  | .query form words offset, operands =>
    match engine.query db t form words with
    | .ok f => .ok (.call f (operands ++ t.columnRefs.map .column))
    | .error e => .error (e.fault located offset)
  | .elementCount found expected, _ => .error (.elementCount found expected)
  | .collation name, _ => .error (.noCollation name)
  | .hexNumber spelling offset, _ => .error (located (.hexTooBig spelling) offset)

end Call

namespace Expr

variable {ν φ ε : Type}

mutual

def resolved (names : ν → Except ε Term) (calls : φ → List Term → Except ε Term) :
    Expr ν φ → Except ε Term
  | .literal c => .ok (.literal c)
  | .parameter index => .ok (.parameter index)
  | .column name => names name
  | .apply o operands => do
    let operands ← resolvedList names calls operands
    pure (.apply o operands)
  | .call f operands => do
    let operands ← resolvedList names calls operands
    calls f operands

def resolvedList (names : ν → Except ε Term) (calls : φ → List Term → Except ε Term) :
    List (Expr ν φ) → Except ε (List Term)
  | [] => .ok []
  | e :: rest => do
    let e ← resolved names calls e
    let rest ← resolvedList names calls rest
    pure (e :: rest)

end

end Expr

structure Selected where
  columns : List String
  rows : List (List Cell)

namespace Select

/-- The condition as it is read, before its names are resolved. Without a condition
every row is selected. -/
def read (s : Select) : Except Fault Condition.Read :=
  match s.condition with
  | none => .ok ⟨.literal (.ofBool true), 0⟩
  | some condition => Condition.read s.statement s.lead.utf8ByteSize condition

def located (s : Select) (problem : Problem) (offset : Nat) : Fault :=
  .located problem s.statement (s.lead.utf8ByteSize + offset)

def resolveMention (s : Select) (t : Table) (m : Mention) : Except Fault Term :=
  match m.resolve t with
  | .ok e => .ok e
  | .error problem => .error (s.located problem m.place)

/-- A condition with its names resolved. It has to have one value. -/
def resolve (s : Select) (engine : Engine) (db : Database) (t : Table) (e : Condition.Parsed) :
    Except Fault Term := do
  let e ← e.resolved (s.resolveMention t) (Call.resolve engine db t s.located)
  if e.width = some 1 then pure e else throw .rowMisused

def order (s : Select) (t : Table) : Except Fault (Option ColumnRef) :=
  match s.orderBy with
  | none => .ok none
  | some column =>
    match Mention.columnOf t column with
    | some c => .ok (some c)
    | none => .error (.located (.noColumn column) s.statement s.orderLead.utf8ByteSize)

/-- There is a value for each parameter. Values past the first one too many are not
counted. -/
def checkCount (given needed : Nat) : Except Fault Unit :=
  if given = needed then .ok () else .error (.parameterCount (min given (needed + 1)) needed)

/-- Rows in the order of their ids, ordered by a column. -/
def arrange (rows : List StoredRow) : Option ColumnRef → List StoredRow
  | some ⟨some i, _⟩ =>
    rows.mergeSort fun a b => (a.cells.getD i .null).order (b.cells.getD i .null) != .gt
  | _ => rows

/-- The rows that pass a test. All of them are tested, up to the first failure. -/
def picked (test : StoredRow → Except Fault Bool) : List StoredRow → Except Fault (List StoredRow)
  | [] => .ok []
  | r :: rest => do
    let passes ← test r
    let others ← picked test rest
    pure (if passes then r :: others else others)

/-- The rows for which a condition is true. Terms that depend on no row are tested once
before the first row. -/
def found (engine : Engine) (t : Table) (e : Term) (parameters : List Cell) :
    Except Fault (List StoredRow) := do
  let terms := engine.plan.order t e.terms
  if ← Expr.hold ⟨0, [], parameters⟩ (terms.filter (·.isConstant)) then
    picked (fun r => Expr.hold ⟨r.id, r.cells, parameters⟩ terms) t.rows
  else pure []

def run (s : Select) (db : Database) (parameters : List Cell) (engine : Engine := .standard) :
    Except Fault Selected := do
  let read ← s.read
  let t ← db.table s.table
  let e ← s.resolve engine db t read.expr
  let order ← s.order t
  checkCount parameters.length read.parameters
  let found ← found engine t e parameters
  let arranged := arrange found order
  let rows :=
    match s.limit with
    | some n => arranged.take n
    | none => arranged
  pure ⟨t.columnNames, rows.map fun r => .integer r.id :: r.cells⟩

end Select

end ObsCatalog.Sql
