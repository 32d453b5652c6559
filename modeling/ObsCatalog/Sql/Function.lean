import ObsCatalog.Sql.Expr

/-! Functions.

These are the functions that need nothing but their arguments. An argument that decides the
result before the others are reached keeps these from being looked at.
-/

set_option autoImplicit false

namespace ObsCatalog.Sql

namespace Function

def scalar (f : List Outcome → Except Fault Cell) : Function where
  width := 1
  admits ns := ns.all (· == 1)
  apply operands :=
    .ofScalar (.ofValue (f operands) (operands.findSome? (·.collation)))

def values (operands : List Outcome) : Except Fault (List Cell) := operands.mapM (·.value)

def strict (f : List Cell → Except Fault Cell) : Function := scalar fun operands => do
  f (← values operands)

def first (cells : List Cell) : Cell := cells.headD .null

def absolute : Cell → Except Fault Cell
  | .null => .ok .null
  | .integer n =>
    if n = Int64.minValue then .error (.raised ⟨"integer overflow", by decide⟩)
    else .ok (.integer (if n < 0 then -n else n))
  | c => .ok (.real c.toReal.abs)

def length : Cell → Cell
  | .null => .null
  | .blob bytes => .integer (Int64.ofNat bytes.length)
  | c => .integer (Int64.ofNat c.shown.length)

def mapped (f : Char → Char) : Cell → Cell
  | .null => .null
  | c => .text (String.ofList (c.written.toList.map f))

def kind : Cell → Cell
  | .null => .text "null"
  | .integer _ => .text "integer"
  | .real _ => .text "real"
  | .text _ | .mangled _ => .text "text"
  | .blob _ => .text "blob"

def coalesce : List Outcome → Except Fault Cell
  | [] => .ok .null
  | x :: rest => do
    let c ← x.value
    if c.isNull then coalesce rest else pure c

def nullIf : List Outcome → Except Fault Cell
  | [x, y] => do
    let a ← x.value
    let b ← y.value
    let collation := ((x.collation <|> y.collation).getD .binary)
    pure (if collation.order a b == .eq then .null else a)
  | _ => .ok .null

/-- The value that comes before all others in an order; null if there is a null among
them. -/
def extreme (wanted : Ordering) (operands : List Outcome) : Except Fault Cell := do
  let collation := (operands.findSome? (·.collation)).getD .binary
  match ← values operands with
  | [] => pure .null
  | c :: rest =>
    if (c :: rest).any (·.isNull) then pure .null
    else pure (rest.foldl (fun best c => if collation.order c best == wanted then c else best) c)

def pattern (f : Outcome → Outcome → Truth.Attempt) : List Outcome → Except Fault Cell
  | [pattern, text] => (f text pattern).map Cell.ofTruth
  | [pattern, text, escape] => (Outcome.matchedEscaped text pattern escape).map Cell.ofTruth
  | _ => .ok .null

structure Entry where
  takes : Nat → Bool
  function : Function

def named? (name : String) : Option Entry :=
  match name with
  | "abs" => some ⟨(· == 1), strict fun cells => absolute (first cells)⟩
  | "length" => some ⟨(· == 1), strict fun cells => .ok (length (first cells))⟩
  | "lower" => some ⟨(· == 1), strict fun cells => .ok (mapped Char.toLower (first cells))⟩
  | "upper" => some ⟨(· == 1), strict fun cells => .ok (mapped Char.toUpper (first cells))⟩
  | "typeof" => some ⟨(· == 1), strict fun cells => .ok (kind (first cells))⟩
  | "coalesce" => some ⟨(2 ≤ ·), scalar coalesce⟩
  | "ifnull" => some ⟨(· == 2), scalar coalesce⟩
  | "nullif" => some ⟨(· == 2), scalar nullIf⟩
  | "iif" => some ⟨(· == 3), scalar (Outcome.choose (·.truth))⟩
  | "min" => some ⟨(2 ≤ ·), scalar (extreme .lt)⟩
  | "max" => some ⟨(2 ≤ ·), scalar (extreme .gt)⟩
  | "like" =>
    some ⟨fun n => n == 2 || n == 3, scalar (pattern (Outcome.matched (Outcome.likes none)))⟩
  | "glob" => some ⟨(· == 2), scalar (pattern (Outcome.matched Outcome.globs))⟩
  | "match" =>
    some ⟨(· == 2), strict fun _ =>
      .error (.raised ⟨"unable to use function MATCH in the requested context", by decide⟩)⟩
  | _ => none

def find (name : String) (count : Nat) : Except Problem Function :=
  match named? (String.ofList (name.toList.map Char.toLower)) with
  | some entry => if entry.takes count then .ok entry.function else .error (.argumentCount name)
  | none => .error (.noFunction name)

end Function

end ObsCatalog.Sql
