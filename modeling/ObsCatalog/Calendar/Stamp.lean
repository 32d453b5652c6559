import ObsCatalog.Calendar.Fields

/-! Instants as text to the second.

A stamp is `YYYY-MM-DD HH:MM:SS`. It is the form in which creation times are
stored. Reading a stamp is more lenient than writing one: numbers may be short
and blanks may stand before them.
-/

set_option autoImplicit false

namespace ObsCatalog.Calendar

open Text

namespace Stamp

def write (t : Instant) : String :=
  String.ofList (t.date.text ++ ' ' :: t.clockText)

def fields : FieldReader Fields := do
  let year ← FieldReader.year
  FieldReader.literal '-'
  let month ← FieldReader.field 1 12
  FieldReader.literal '-'
  let day ← FieldReader.field 1 31
  FieldReader.blanks
  let hour ← FieldReader.field 0 23
  FieldReader.literal ':'
  let minute ← FieldReader.field 0 59
  FieldReader.literal ':'
  let second ← FieldReader.field 0 60
  pure ⟨⟨year, month, day⟩, hour, minute, second, 0⟩

def read (text : String) : Except ReadFault Instant := do
  let (f, rest) ← fields text.toList
  if rest.isEmpty then f.instant 0 else throw .trailing

end Stamp

def Instant.dateText (t : Instant) : String := String.ofList t.date.text

/-- An instant in full, with its fraction and zone, as messages show it. -/
def Instant.display (t : Instant) : String :=
  String.ofList (t.date.text ++ ' ' :: t.clockText ++ t.fractionText) ++ " UTC"

end ObsCatalog.Calendar
