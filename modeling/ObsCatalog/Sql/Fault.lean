import ObsCatalog.Text.Digits

/-! Failures of statements.

A failure in the text of a statement is shown with the statement and the place where
the text goes wrong, counted in bytes. Other failures are shown alone. Most carry a
numbered code with a text of its own.
-/

set_option autoImplicit false

namespace ObsCatalog.Sql

open Text

/-- What can be wrong at a place in the text of a statement. -/
inductive Problem where
  | unexpected (token : String)
  | unrecognized (token : String)
  | parameterNumber
  | noColumn (name : String)
  /-- A column that is to be altered. -/
  | noAltered (name : String)
  | noFunction (name : String)
  /-- A function that does not take so many arguments. -/
  | argumentCount (name : String)
  | hexTooBig (number : String)
  deriving DecidableEq, Repr

def greatestParameter : Nat := 32766

def Problem.message : Problem → String
  | .unexpected token => "near \"" ++ token ++ "\": syntax error"
  | .unrecognized token => "unrecognized token: \"" ++ token ++ "\""
  | .parameterNumber =>
    "variable number must be between ?1 and ?" ++ integerText greatestParameter
  | .noColumn name => "no such column: " ++ name
  | .noAltered name => "no such column: \"" ++ name ++ "\""
  | .noFunction name => "no such function: " ++ name
  | .argumentCount name => "wrong number of arguments to function " ++ name ++ "()"
  | .hexTooBig number => "hex literal too big: " ++ number

inductive Fault where
  | located (problem : Problem) (statement : String) (offset : Nat)
  | incomplete
  | noTable (name : String)
  | noTarget (table column : String)
  | noAssigned (column : String)
  | duplicateColumn (column : String)
  /-- A column that must not be null is added to rows without a cell for it. -/
  | nullColumn
  | renamedTwice (table column : String)
  | keyColumn (column : String)
  | indexedColumn (index column : String)
  | parameterCount (given needed : Nat)
  /-- A row stands where there has to be one value, or next to a row of another width. -/
  | rowMisused
  /-- A row of values is looked for in a list with an element of another width. -/
  | elementCount (found expected : Nat)
  | noCollation (name : String)
  /-- A function fails on the values of a row and says why. -/
  | raised (message : { text : String // text ≠ "" })
  | notInteger
  | full
  | readOnly
  | notDatabase
  | required (table column : String)
  | check (condition : String)
  | duplicateKey (table column : String)
  | reference
  | noRows
  | columnType (found : String) (index : Nat) (column : String)
  | columnRange (value : Int) (index : Nat)
  | columnText (index : Nat) (reason : String)
  deriving DecidableEq, Repr

namespace Fault

def message : Fault → String
  | .located problem statement offset =>
    problem.message ++ " in " ++ statement ++ " at offset " ++ integerText offset
  | .incomplete => "incomplete input"
  | .noTable name => "no such table: " ++ name
  | .noTarget table column => "table " ++ table ++ " has no column named " ++ column
  | .noAssigned column => "no such column: " ++ column
  | .duplicateColumn column => "duplicate column name: " ++ column
  | .nullColumn => "Cannot add a NOT NULL column with default value NULL"
  | .renamedTwice table column =>
    "error in table " ++ table ++ " after rename: duplicate column name: " ++ column
  | .keyColumn column => "cannot drop PRIMARY KEY column: \"" ++ column ++ "\""
  | .indexedColumn index column =>
    "error in index " ++ index ++ " after drop column: no such column: " ++ column
  | .parameterCount given needed =>
    "Wrong number of parameters passed to query. Got " ++ integerText given ++ ", needed " ++
      integerText needed
  | .rowMisused => "row value misused"
  | .elementCount found expected =>
    "IN(...) element has " ++ integerText found ++ (if found = 1 then " term" else " terms") ++
      " - expected " ++ integerText expected
  | .noCollation name => "no such collation sequence: " ++ name
  | .raised message => message.val
  | .notInteger => "datatype mismatch"
  | .full => "database or disk is full"
  | .readOnly => "attempt to write a readonly database"
  | .notDatabase => "file is not a database"
  | .required table column => "NOT NULL constraint failed: " ++ table ++ "." ++ column
  | .check condition => "CHECK constraint failed: " ++ condition
  | .duplicateKey table column => "UNIQUE constraint failed: " ++ table ++ "." ++ column
  | .reference => "FOREIGN KEY constraint failed"
  | .noRows => "Query returned no rows"
  | .columnType found index column =>
    "Invalid column type " ++ found ++ " at index: " ++ integerText index ++ ", name: " ++ column
  | .columnRange value index =>
    "Integer " ++ integerText value ++ " out of range at index " ++ integerText index
  | .columnText index reason =>
    "Conversion error from type Text at index: " ++ integerText index ++ ", " ++ reason

def code? : Fault → Option (Nat × String)
  | .located .. | .incomplete | .noTable _ | .noTarget .. | .noAssigned _ | .duplicateColumn _
  | .nullColumn | .renamedTwice .. | .keyColumn _ | .indexedColumn .. | .rowMisused
  | .elementCount .. | .raised _ =>
    some (1, "SQL logic error")
  | .noCollation _ => some (257, "SQLITE_ERROR_MISSING_COLLSEQ")
  | .notInteger => some (20, "Data type mismatch")
  | .full => some (13, "Insertion failed because database is full")
  | .readOnly => some (1032, "Unknown error")
  | .notDatabase => some (26, "File opened that is not a database file")
  | .required .. => some (1299, "A NOT NULL constraint failed")
  | .check _ => some (275, "A CHECK constraint failed")
  | .duplicateKey .. => some (1555, "A PRIMARY KEY constraint failed")
  | .reference => some (787, "Foreign key constraint failed")
  | .columnText _ _ => none
  | .parameterCount .. | .noRows | .columnType .. | .columnRange .. => none

def causes (e : Fault) : List String :=
  match e.code? with
  | some (code, meaning) => ["Error code " ++ integerText code ++ ": " ++ meaning]
  | none =>
    match e with
    | .columnText _ reason => [reason]
    | _ => []

end Fault

end ObsCatalog.Sql
