import ObsCatalog.Calendar.Stamp

/-! Instants in interchange form.

The written form is `YYYY-MM-DDTHH:MM:SS`, a fraction where there is one, and
`Z`. The reader also takes an offset from UTC, blanks between the parts, and a
blank in place of the `T`.
-/

set_option autoImplicit false

namespace ObsCatalog.Calendar

open Text

namespace Interchange

def write (t : Instant) : String :=
  String.ofList (t.date.text ++ 'T' :: t.clockText ++ t.fractionText ++ ['Z'])

/-- The nanoseconds that a run of digits after a point stands for; digits past the
ninth are dropped. -/
def fraction : FieldReader Nat := fun cs =>
  match cs with
  | '.' :: rest =>
    (do
      let before ← get
      let n ← FieldReader.number 9
      let after ← get
      modify (·.dropWhile Char.isDigit)
      pure (n * Nat.pow 10 (9 - (before.length - after.length))) : FieldReader Nat) rest
  | cs => .ok (0, cs)

def separator : FieldReader Unit := fun cs =>
  match cs with
  | [] => .error .tooShort
  | c :: rest => if c = 't' ∨ c = 'T' ∨ c = ' ' then .ok ((), rest) else .error .invalid

def sign : FieldReader Bool := fun cs =>
  match cs with
  | [] => .error .tooShort
  | c :: rest =>
    if c = '+' then .ok (false, rest)
    else if c = '-' ∨ c = '−' then .ok (true, rest)
    else .error .invalid

def twoDigits (high : Nat) : FieldReader Nat := fun cs =>
  match cs with
  | a :: b :: rest =>
    if a.isDigit ∧ b.isDigit then FieldReader.within 0 high (Text.number [a, b]) rest
    else .error .invalid
  | _ => .error .tooShort

def offset : FieldReader Int := fun cs =>
  match cs with
  | 'Z' :: rest | 'z' :: rest => .ok (0, rest)
  | a :: b :: c :: rest =>
    if [a.toUpper, b.toUpper, c.toUpper] = ['U', 'T', 'C'] then .ok (0, rest) else numeric cs
  | cs => numeric cs
where
  numeric : FieldReader Int := do
    let negative ← sign
    let hours ← twoDigits 99
    modify (·.dropWhile fun c => c = ':' || isBlank c)
    let minutes ← twoDigits 59
    let seconds : Int := hours * 3600 + minutes * 60
    pure (if negative then -seconds else seconds)

def fields : FieldReader (Fields × Int) := do
  let year ← FieldReader.year
  FieldReader.blanks
  FieldReader.literal '-'
  let month ← FieldReader.field 1 12
  FieldReader.blanks
  FieldReader.literal '-'
  let day ← FieldReader.field 1 31
  separator
  let hour ← FieldReader.field 0 23
  FieldReader.blanks
  FieldReader.literal ':'
  let minute ← FieldReader.field 0 59
  FieldReader.blanks
  FieldReader.literal ':'
  let second ← FieldReader.field 0 60
  let nano ← fraction
  FieldReader.blanks
  let ahead ← offset
  pure (⟨⟨year, month, day⟩, hour, minute, second, nano⟩, ahead)

def read (text : String) : Except ReadFault Instant := do
  let ((f, ahead), rest) ← fields text.toList
  if (dropBlanks rest).isEmpty then
    if -86400 < ahead ∧ ahead < 86400 then f.instant ahead else throw .outOfRange
  else throw .trailing

end Interchange

end ObsCatalog.Calendar
