/-! Decimal digits.

Numbers are written with at least a given count of digits and read back from
runs of ASCII digits. Padding never changes the number that is read.
-/

set_option autoImplicit false

namespace ObsCatalog.Text

def digits (n : Nat) : List Char := Nat.toDigits 10 n

def number (cs : List Char) : Nat := Nat.ofDigitChars 10 cs 0

@[simp] theorem number_digits (n : Nat) : number (digits n) = n := by
  simp [number, digits]

theorem isDigit_of_mem_digits {n : Nat} {c : Char} (member : c ∈ digits n) : c.isDigit := by
  exact Nat.isDigit_of_mem_toDigits (by decide) (by decide) member

/-- The decimal digits of a number, filled with zeros to at least `width`. -/
def padded (width n : Nat) : List Char :=
  List.replicate (width - (digits n).length) '0' ++ digits n

theorem isDigit_of_mem_padded {width n : Nat} {c : Char} (member : c ∈ padded width n) :
    c.isDigit := by
  rcases List.mem_append.1 member with filler | digit
  · rw [List.eq_of_mem_replicate filler]; decide
  · exact isDigit_of_mem_digits digit

theorem number_replicate_zero_append (k : Nat) (cs : List Char) :
    number (List.replicate k '0' ++ cs) = number cs := by
  induction k with
  | zero => rfl
  | succ k ih => simpa [number, List.replicate_succ, Nat.ofDigitChars_cons] using ih

@[simp] theorem number_padded (width n : Nat) : number (padded width n) = n := by
  simp [padded, number_replicate_zero_append]

theorem length_padded {width n : Nat} (short : (digits n).length ≤ width) :
    (padded width n).length = width := by
  simp [padded]; omega

theorem padded_ne_nil (width n : Nat) : padded width n ≠ [] := by
  intro empty
  have none : digits n = [] := (List.append_eq_nil_iff.1 empty).2
  simp [digits] at none

theorem isDigit_head_padded (width n : Nat) (rest : List Char) :
    ∃ c cs, padded width n ++ rest = c :: cs ∧ c.isDigit := by
  cases shape : padded width n with
  | nil => exact absurd shape (padded_ne_nil width n)
  | cons c cs =>
    have member : c ∈ padded width n := by simp [shape]
    exact ⟨c, cs ++ rest, rfl, isDigit_of_mem_padded member⟩

/-- The longest leading run of digits, at most `limit` of them, and the rest. -/
def takeDigits (limit : Nat) (cs : List Char) : List Char × List Char :=
  let run := (cs.take limit).takeWhile Char.isDigit
  (run, cs.drop run.length)

/-- A run of digits is taken whole if it has as many as may be taken or no digit follows it. -/
theorem takeDigits_append {limit : Nat} {run rest : List Char} (digits : ∀ c ∈ run, c.isDigit)
    (short : run.length ≤ limit)
    (ends : run.length = limit ∨ rest.takeWhile Char.isDigit = []) :
    takeDigits limit (run ++ rest) = (run, rest) := by
  have followed : (rest.take (limit - run.length)).takeWhile Char.isDigit = [] := by
    rcases ends with full | ends
    · simp [full]
    · cases rest with
      | nil => simp
      | cons c rest =>
        have other : ¬ c.isDigit := by
          intro digit
          simp [digit] at ends
        cases limit - run.length with
        | zero => rfl
        | succ k => simp [other]
  have found : ((run ++ rest).take limit).takeWhile Char.isDigit = run := by
    rw [List.take_append, List.take_of_length_le short, List.takeWhile_append_of_pos digits,
      followed, List.append_nil]
  simp [takeDigits, found]

def integerChars : Int → List Char
  | .ofNat n => digits n
  | .negSucc n => '-' :: digits (n + 1)

def integerText (i : Int) : String := String.ofList (integerChars i)

end ObsCatalog.Text
