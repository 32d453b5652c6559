import ObsCatalog.Json.Number

/-! Values of an expected kind.

Each reader takes one kind of value and names what it found otherwise. An object is
read member by member; members with other names are skipped, whatever their values.
A record may also stand as an array of its fields in order.
-/

set_option autoImplicit false

namespace ObsCatalog.Json

open Text

namespace Reader

def mismatch {α : Type} (m : Mismatch) : Reader α := fail (.mismatched m)

def valueStart : Reader Symbol := do
  match ← blanks with
  | some s => pure s
  | none => fail (.ended .value)

def wrongKind {α : Type} (expected : String) : Reader α := do
  match ← peek with
  | some (.char 'n') => advance; word ['u', 'l', 'l']; mismatch (.wrongKind .null expected)
  | some (.char 't') =>
    advance; word ['r', 'u', 'e']; mismatch (.wrongKind (.bool true) expected)
  | some (.char 'f') =>
    advance; word ['a', 'l', 's', 'e']; mismatch (.wrongKind (.bool false) expected)
  | some (.char '"') =>
    advance
    let s ← string
    mismatch (.wrongKind (.text s) expected)
  | some (.char '[') => mismatch (.wrongKind .list expected)
  | some (.char '{') => mismatch (.wrongKind .object expected)
  | some s =>
    if startsNumber s then
      match ← anyNumber with
      | .integer n => mismatch (.wrongKind (.integer n) expected)
      | .real x => mismatch (.wrongKind (.real x) expected)
    else fail (.malformed .noValue)
  | none => fail (.malformed .noValue)

def text (expected : String) : Reader String := do
  match ← valueStart with
  | .char '"' => advance; string
  | _ => wrongKind expected

def bool : Reader Bool := do
  match ← valueStart with
  | .char 't' => advance; word ['r', 'u', 'e']; pure true
  | .char 'f' => advance; word ['a', 'l', 's', 'e']; pure false
  | _ => wrongKind "a boolean"

def number (expected : String) : Reader Number := do
  let s ← valueStart
  if startsNumber s then anyNumber else wrongKind expected

def int64 : Reader Int64 := do
  match ← number "i64" with
  | .integer n =>
    if Int64.minValue.toInt ≤ n ∧ n ≤ Int64.maxValue.toInt then pure (Int64.ofInt n)
    else mismatch (.wrongInteger n "i64")
  | .real x => mismatch (.wrongKind (.real x) "i64")

def float : Reader Float := do
  match ← number "f64" with
  | .integer n => pure (Real.ofInt n)
  | .real x => pure x

def optional {α : Type} (r : Reader α) : Reader (Option α) := do
  match ← blanks with
  | some (.char 'n') => advance; word ['u', 'l', 'l']; pure none
  | _ => some <$> r

def null (expected : String) : Reader Unit := do
  match ← valueStart with
  | .char 'n' => advance; word ['u', 'l', 'l']
  | _ => wrongKind expected

def colon : Reader Unit := do
  match ← blanks with
  | some (.char ':') => advance
  | some _ => fail (.malformed .noColon)
  | none => fail (.ended .object)

def skipScalar : Reader Unit := do
  match ← peek with
  | some (.char 'n') => advance; word ['u', 'l', 'l']
  | some (.char 't') => advance; word ['r', 'u', 'e']
  | some (.char 'f') => advance; word ['a', 'l', 's', 'e']
  | some (.char '"') => advance; skipString
  | some s => if startsNumber s then skipNumber else fail (.malformed .noValue)
  | none => fail (.ended .value)

def skipName : Reader Unit := do
  match ← blanks with
  | some (.char '"') => advance; skipString
  | some _ => fail (.malformed .keyNotString)
  | none => fail (.ended .object)
  colon

mutual

/-- Skip a value of any kind. Each step consumes a symbol, so the count of symbols
bounds the steps. -/
def skip : Nat → Reader Unit
  | 0 => fail (.ended .value)
  | steps + 1 => do
    match ← valueStart with
    | .char '[' =>
      advance
      match ← blanks with
      | some (.char ']') => advance
      | none => fail (.ended .list)
      | some _ => skipItems steps
    | .char '{' =>
      advance
      match ← blanks with
      | some (.char '}') => advance
      | none => fail (.ended .object)
      | some _ => skipMembers steps
    | _ => skipScalar

def skipItems : Nat → Reader Unit
  | 0 => fail (.ended .list)
  | steps + 1 => do
    skip steps
    match ← blanks with
    | some (.char ',') => advance; skipItems steps
    | some (.char ']') => advance
    | some _ => fail (.malformed .noListEnd)
    | none => fail (.ended .list)

def skipMembers : Nat → Reader Unit
  | 0 => fail (.ended .object)
  | steps + 1 => do
    skipName
    skip steps
    match ← blanks with
    | some (.char ',') => advance; skipMembers steps
    | some (.char '}') => advance
    | some _ => fail (.malformed .noObjectEnd)
    | none => fail (.ended .object)

end

/-- Two steps for each symbol suffice to skip any value. -/
def skipValue : Reader Unit := fun c => skip (2 * c.rest.length + 2) c

def closeObject : Reader Unit := do
  match ← blanks with
  | some (.char '}') => advance
  | some (.char ',') => fail (.malformed .trailingComma)
  | some _ => fail (.malformed .trailingCharacters)
  | none => fail (.ended .object)

/-- Fail inside an object. The failure is placed where the object would be closed. -/
def objectMismatch {α : Type} (m : Mismatch) : Reader α := do
  match ← blanks with
  | some (.char '}') => advance
  | _ => pure ()
  mismatch m

def nextName (first : Bool) : Reader (Option String) := do
  let name : Option Symbol → Reader (Option String) := fun
    | some (.char '"') => do advance; some <$> string
    | some (.char '}') => fail (.malformed .trailingComma)
    | some _ => fail (.malformed .keyNotString)
    | none => fail (.ended .value)
  match ← blanks with
  | none => fail (.ended .object)
  | some (.char '}') => pure none
  | some (.char ',') =>
    if first then name (some (.char ','))
    else do
      advance
      name (← blanks)
  | some s => if first then name (some s) else fail (.malformed .noObjectEnd)

/-- The members of an object. Each updates what has been read so far; the count of
symbols bounds their number. -/
def membersFrom {σ : Type} (member : String → σ → Reader σ) : Nat → Bool → σ → Reader σ
  | 0, _, _ => fail (.ended .object)
  | steps + 1, first, draft => do
    match ← nextName first with
    | none => pure draft
    | some name => do
      let draft ← member name draft
      membersFrom member steps false draft

def members {σ : Type} (member : String → σ → Reader σ) (empty : σ) : Reader σ := fun c =>
  membersFrom member (c.rest.length + 1) true empty c

def once {α : Type} (name : String) (given : Option α) (r : Reader α) : Reader (Option α) :=
  match given with
  | some _ => objectMismatch (.duplicateField name)
  | none => do
    colon
    some <$> r

def skipMember : Reader Unit := do
  colon
  skipValue

def required {α : Type} (name : String) (given : Option α) : Reader α :=
  match given with
  | some a => pure a
  | none => objectMismatch (.missingField name)

def closeList : Reader Unit := do
  match ← blanks with
  | some (.char ']') => advance
  | some (.char ',') =>
    advance
    match ← blanks with
    | some (.char ']') => fail (.malformed .trailingComma)
    | _ => fail (.malformed .trailingCharacters)
  | some _ => fail (.malformed .trailingCharacters)
  | none => fail (.ended .list)

def listMismatch {α : Type} (m : Mismatch) : Reader α := do
  match ← blanks with
  | some (.char ']') => advance
  | some (.char ',') =>
    advance
    let _ ← blanks
  | _ => pure ()
  mismatch m

def hasElement (first : Bool) : Reader Bool := do
  match ← blanks with
  | none => fail (.ended .list)
  | some (.char ']') => pure false
  | some (.char ',') =>
    if first then pure true
    else do
      advance
      match ← blanks with
      | some (.char ']') => fail (.malformed .trailingComma)
      | some _ => pure true
      | none => fail (.ended .value)
  | some _ => if first then pure true else fail (.malformed .noListEnd)

def element {α : Type} (index : Nat) (r : Reader α) : Reader (Option α) := do
  if ← hasElement (index == 0) then some <$> r else pure none

def requiredElement {α : Type} (index : Nat) (expected : String) (r : Reader α) : Reader α := do
  match ← element index r with
  | some a => pure a
  | none => listMismatch (.wrongLength index expected)

/-- A record, as an object or as an array of its fields. -/
def record {α : Type} (expected : String) (ofObject ofList : Reader α) : Reader α := do
  match ← valueStart with
  | .char '{' => do
    advance
    let a ← ofObject
    closeObject
    pure a
  | .char '[' => do
    advance
    let a ← ofList
    closeList
    pure a
  | _ => wrongKind expected

def document {α : Type} (r : Reader α) (input : List Symbol) : Except Fault α :=
  let reader : Reader α := do
    let a ← r
    match ← blanks with
    | none => pure a
    | some _ => fail (.malformed .trailingCharacters)
  (reader ⟨input, false⟩).map (·.1)

end Reader

end ObsCatalog.Json
