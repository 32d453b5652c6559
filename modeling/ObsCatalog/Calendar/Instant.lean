import ObsCatalog.Calendar.CivilDate

/-! Instants of UTC.

An instant is a whole second, counted from 1970-01-01 00:00:00 without leap
seconds, and a fraction of it. A fraction of one second or more stands for an
inserted leap second. A timestamp can have one only after second 59 of a minute, but the
fraction of an instant can be set to one at any second. The years that can be represented
run from -262143 to 262142.
-/

set_option autoImplicit false

namespace ObsCatalog.Calendar

def secondsPerDay : Int := 86400

def nanosPerSecond : Nat := 1000000000

/-- The first second of the year -262143. -/
def firstSecond : Int := CivilDate.dayNumber ⟨-262143, 1, 1⟩ * secondsPerDay

/-- The last second of the year 262142. -/
def lastSecond : Int := CivilDate.dayNumber ⟨262142, 12, 31⟩ * secondsPerDay + 86399

example : firstSecond = -8334601228800 := by decide

example : lastSecond = 8210266876799 := by decide

@[ext]
structure Instant where
  second : Int
  nano : Nat
  first_le : firstSecond ≤ second
  le_last : second ≤ lastSecond
  nano_lt : nano < 2 * nanosPerSecond
  /-- A fraction has 32 bits. -/
  nano_fits : nano < UInt32.size
  deriving DecidableEq

namespace Instant

def ofParts? (second : Int) (nano : Nat) : Option Instant :=
  if h : (firstSecond ≤ second ∧ second ≤ lastSecond) ∧
      nano < 2 * nanosPerSecond ∧ (nanosPerSecond ≤ nano → second % 60 = 59) then
    some ⟨second, nano, h.1.1, h.1.2, h.2.1, Nat.lt_trans h.2.1 (by decide)⟩
  else none

/-- A leap second stands only after second 59 of a minute. -/
def IsSettled (t : Instant) : Prop := nanosPerSecond ≤ t.nano → t.second % 60 = 59

instance (t : Instant) : Decidable t.IsSettled := by
  unfold IsSettled; infer_instance

theorem ofParts?_parts {t : Instant} (settled : t.IsSettled) :
    ofParts? t.second t.nano = some t := by
  unfold ofParts?
  rw [dif_pos ⟨⟨t.first_le, t.le_last⟩, t.nano_lt, settled⟩]

theorem parts_of_ofParts? {second : Int} {nano : Nat} {t : Instant}
    (found : ofParts? second nano = some t) : t.second = second ∧ t.nano = nano := by
  unfold ofParts? at found
  split at found
  · cases found; exact ⟨rfl, rfl⟩
  · cases found

theorem isSettled_of_ofParts? {second : Int} {nano : Nat} {t : Instant}
    (found : ofParts? second nano = some t) : t.IsSettled := by
  unfold ofParts? at found
  split at found
  · next known => cases found; exact known.2.2
  · cases found

/-- The instant at the start of a second, where the second can be represented. -/
def ofSecond? (second : Int) : Option Instant := ofParts? second 0

def ofMicros? (micros : Int) : Option Instant :=
  ofParts? (micros / 1000000) ((micros % 1000000).toNat * 1000)

/-- Whole microseconds since 1970-01-01 00:00:00; a leap second counts on. -/
def micros (t : Instant) : Int := t.second * 1000000 + (t.nano / 1000 : Nat)

def isLeap (t : Instant) : Prop := nanosPerSecond ≤ t.nano

instance (t : Instant) : Decidable t.isLeap := by
  unfold isLeap; infer_instance

/-- The instant with the fraction of its second dropped. A leap second stays one. -/
def wholeSecond (t : Instant) : Instant where
  second := t.second
  nano := if t.isLeap then nanosPerSecond else 0
  first_le := t.first_le
  le_last := t.le_last
  nano_lt := by split <;> decide
  nano_fits := by split <;> decide

@[simp] theorem second_wholeSecond (t : Instant) : t.wholeSecond.second = t.second := rfl

@[simp] theorem isLeap_wholeSecond (t : Instant) : t.wholeSecond.isLeap ↔ t.isLeap := by
  by_cases leap : t.isLeap
  · show nanosPerSecond ≤ (if t.isLeap then nanosPerSecond else 0) ↔ _
    simp [leap]
  · show nanosPerSecond ≤ (if t.isLeap then nanosPerSecond else 0) ↔ _
    simp [leap, nanosPerSecond]

@[simp] theorem wholeSecond_wholeSecond (t : Instant) :
    t.wholeSecond.wholeSecond = t.wholeSecond := by
  unfold wholeSecond
  simp only [mk.injEq, true_and]
  have same := isLeap_wholeSecond t
  unfold wholeSecond at same
  simp only [same]

def date (t : Instant) : CivilDate := CivilDate.ofDayNumber (t.second / secondsPerDay)

/-- Seconds since midnight; the leap second counts as second 59. -/
def secondOfDay (t : Instant) : Nat := (t.second % secondsPerDay).toNat

def hour (t : Instant) : Nat := t.secondOfDay / 3600

def minute (t : Instant) : Nat := t.secondOfDay / 60 % 60

/-- The second of the minute; 60 in a leap second. -/
def secondOfMinute (t : Instant) : Nat := t.secondOfDay % 60 + t.nano / nanosPerSecond

/-- Nanoseconds since the start of the second shown by `secondOfMinute`. -/
def fraction (t : Instant) : Nat := t.nano % nanosPerSecond

/-- Earlier instants come first; a leap second comes between its neighbours. -/
def before (a b : Instant) : Prop :=
  a.second < b.second ∨ a.second = b.second ∧ a.nano < b.nano

instance (a b : Instant) : Decidable (a.before b) := by
  unfold before; infer_instance

end Instant

end ObsCatalog.Calendar
