import ObsCatalog.Calendar.Instant
import ObsCatalog.Text.Blank
import ObsCatalog.Text.Digits

/-! Calendar fields in text.

A reader consumes a prefix of a text or says why it cannot. Every number may be
preceded by blanks. The fields that were read name an instant exactly when the
date exists and the year can be represented.
-/

set_option autoImplicit false

namespace ObsCatalog.Calendar

open Text

inductive ReadFault where
  | tooShort
  | invalid
  | outOfRange
  | trailing
  | impossible
  deriving DecidableEq, Repr

def ReadFault.message : ReadFault → String
  | .tooShort => "premature end of input"
  | .invalid => "input contains invalid characters"
  | .outOfRange => "input is out of range"
  | .trailing => "trailing input"
  | .impossible => "no possible date and time matching input"

abbrev FieldReader := StateT (List Char) (Except ReadFault)

namespace FieldReader

theorem bind_ok {α β : Type} {first : FieldReader α} {next : α → FieldReader β}
    {cs rest : List Char} {a : α} (read : first cs = .ok (a, rest)) :
    (first >>= next) cs = next a rest := by
  show (first cs >>= fun (a, rest) => next a rest) = next a rest
  rw [read]
  rfl

theorem bind_eq_ok {α β : Type} {first : FieldReader α} {next : α → FieldReader β}
    {cs rest : List Char} {b : β} (read : (first >>= next) cs = .ok (b, rest)) :
    ∃ a between, first cs = .ok (a, between) ∧ next a between = .ok (b, rest) := by
  cases started : first cs with
  | error fault =>
    have stopped : (first >>= next) cs = .error fault := by
      show (first cs >>= fun (a, rest) => next a rest) = .error fault
      rw [started]
      rfl
    simp [stopped] at read
  | ok found => exact ⟨found.1, found.2, rfl, (bind_ok started).symm.trans read⟩

def blanks : FieldReader Unit := modify dropBlanks

def literal (c : Char) : FieldReader Unit := fun cs =>
  match cs with
  | [] => .error .tooShort
  | d :: rest => if d = c then .ok ((), rest) else .error .invalid

def number (limit : Nat) : FieldReader Nat := fun cs =>
  match cs, takeDigits limit cs with
  | [], _ => .error .tooShort
  | _, ([], _) => .error .invalid
  | _, (run, rest) => .ok (Text.number run, rest)

def allDigits : FieldReader Nat := fun cs => number cs.length cs

def within (low high : Nat) (n : Nat) : FieldReader Nat :=
  if low ≤ n ∧ n ≤ high then pure n else throw .outOfRange

/-- The number of a year: up to four digits, or a sign and any number of them. -/
def yearNumber : FieldReader Int := fun cs =>
  match cs with
  | '-' :: rest => (do let n ← allDigits; pure (-(n : Int)) : FieldReader Int) rest
  | '+' :: rest => (do let n ← allDigits; pure (n : Int) : FieldReader Int) rest
  | cs => (do let n ← number 4; pure (n : Int) : FieldReader Int) cs

def year : FieldReader Int := do
  blanks
  let value ← yearNumber
  if -2147483648 ≤ value ∧ value ≤ 2147483647 then pure value else throw .outOfRange

def field (low high : Nat) : FieldReader Nat := do
  blanks
  let n ← number 2
  within low high n

end FieldReader

/-- A time of day and a date, as they stand in a text. -/
structure Fields where
  date : CivilDate
  hour : Nat
  minute : Nat
  second : Nat
  nano : Nat
  deriving DecidableEq, Repr

namespace Fields

/-- Seconds since 1970-01-01 00:00:00; second 60 counts as the second before it. -/
def unixSecond (f : Fields) : Int :=
  f.date.dayNumber * secondsPerDay + (f.hour * 3600 + f.minute * 60 + min f.second 59 : Nat)

/-- The fraction of the second, with second 60 as a leap second. -/
def leapNano (f : Fields) : Nat :=
  if f.second = 60 then nanosPerSecond + f.nano else f.nano

/-- The instant that the fields name in a zone `offset` seconds ahead of UTC. -/
def instant (f : Fields) (offset : Int) : Except ReadFault Instant :=
  if f.date.Valid ∧ -262143 ≤ f.date.year ∧ f.date.year ≤ 262142 then
    match Instant.ofParts? (f.unixSecond - offset) f.leapNano with
    | some t => .ok t
    | none => .error .impossible
  else .error .outOfRange

end Fields

/-- The year with at least four digits; outside 0 to 9999 it is signed. -/
def yearText (year : Int) : List Char :=
  if 0 ≤ year ∧ year ≤ 9999 then padded 4 year.toNat
  else if year < 0 then '-' :: padded 4 year.natAbs
  else '+' :: padded 4 year.toNat

def CivilDate.text (d : CivilDate) : List Char :=
  yearText d.year ++ '-' :: padded 2 d.month ++ '-' :: padded 2 d.day

/-- The time of day as `HH:MM:SS`; a leap second is second 60. -/
def Instant.clockText (t : Instant) : List Char :=
  padded 2 t.hour ++ ':' :: padded 2 t.minute ++ ':' :: padded 2 t.secondOfMinute

/-- The fraction of the second after a point, in 0, 3, 6 or 9 digits. -/
def Instant.fractionText (t : Instant) : List Char :=
  let nano := t.fraction
  if nano = 0 then []
  else if nano % 1000000 = 0 then '.' :: padded 3 (nano / 1000000)
  else if nano % 1000 = 0 then '.' :: padded 6 (nano / 1000)
  else '.' :: padded 9 nano

end ObsCatalog.Calendar
