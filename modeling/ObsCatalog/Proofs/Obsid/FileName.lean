import ObsCatalog.Obsid.FileName
import Mathlib.Data.List.TakeWhile
import Mathlib.Tactic.ByContra

/-! What the name of a data file says.

A number in a name is a run of decimal digits, a point and another run, each as long as the
digits go on. The start date is the first number of the name, and it can be read if all of its
digits are ASCII ones. The polarization is the first pair of its letters between points.
-/

set_option autoImplicit false

namespace ObsCatalog.Text

theorem isDecimalDigit_range {c : Char} (decimal : isDecimalDigit c) :
    48 ≤ c.toNat ∧ c.toNat ≤ 57 ∨ 128 ≤ c.toNat := by
  have far : ∀ first ∈ digitZeros, first = 48 ∨ 128 ≤ first := by decide
  obtain ⟨first, known, within⟩ := List.any_eq_true.1 decimal
  simp only [Bool.and_eq_true, decide_eq_true_eq] at within
  rcases far first known with ascii | other
  · left
    omega
  · right
    omega

theorem isDigit_of_isDecimalDigit {c : Char} (decimal : isDecimalDigit c) (ascii : c.toNat < 128) :
    c.isDigit := by
  have range : 48 ≤ c.toNat ∧ c.toNat ≤ 57 := by
    rcases isDecimalDigit_range decimal with range | other
    · exact range
    · omega
  simpa [Char.isDigit, UInt32.le_iff_toNat_le] using range

theorem toNat_lt_of_isDigit {c : Char} (digit : c.isDigit) : c.toNat < 128 := by
  simp only [Char.isDigit, Bool.and_eq_true, decide_eq_true_eq, ge_iff_le,
    UInt32.le_iff_toNat_le] at digit
  exact Nat.lt_of_le_of_lt digit.2 (by decide)

theorem toLower_of_isDecimalDigit {c : Char} (decimal : isDecimalDigit c) : c.toLower = c := by
  unfold Char.toLower
  split
  · next upper =>
    rw [ge_iff_le, UInt32.le_iff_toNat_le, UInt32.le_iff_toNat_le] at upper
    have low : 65 ≤ c.toNat := upper.1
    have high : c.toNat ≤ 90 := upper.2
    rcases isDecimalDigit_range decimal with range | other <;> omega
  · rfl

end ObsCatalog.Text

namespace ObsCatalog.FileName

open Text

section

variable {α : Type} {look : List Char → Option α} {cs : List Char} {found : α}

theorem firstMatch_eq_none_iff : firstMatch look cs = none ↔ ∀ i, look (cs.drop i) = none := by
  induction cs with
  | nil => simp [firstMatch]
  | cons c rest ih =>
    cases here : look (c :: rest) with
    | some found =>
      simp only [firstMatch, here, reduceCtorEq, false_iff]
      intro nowhere
      have none := nowhere 0
      rw [List.drop_zero, here] at none
      cases none
    | none =>
      simp only [firstMatch, here, ih]
      constructor
      · intro later i
        cases i with
        | zero => exact here
        | succ i => exact later i
      · exact fun nowhere i => nowhere (i + 1)

theorem firstMatch_eq_some_iff :
    firstMatch look cs = some found ↔
      ∃ i, look (cs.drop i) = some found ∧ ∀ j < i, look (cs.drop j) = none := by
  induction cs with
  | nil =>
    constructor
    · exact fun here => ⟨0, here, nofun⟩
    · rintro ⟨i, here, -⟩
      rwa [List.drop_nil] at here
  | cons c rest ih =>
    -- Places in the rest are one further on in the whole text.
    cases here : look (c :: rest) with
    | some first =>
      simp only [firstMatch, here]
      constructor
      · intro same
        exact ⟨0, here.trans same, nofun⟩
      · rintro ⟨i, there, before⟩
        cases i with
        | zero => exact here.symm.trans there
        | succ i =>
          have none := before 0 i.succ_pos
          rw [List.drop_zero, here] at none
          cases none
    | none =>
      simp only [firstMatch, here, ih]
      constructor
      · rintro ⟨i, there, before⟩
        refine ⟨i + 1, there, fun j earlier => ?_⟩
        cases j with
        | zero => exact here
        | succ j => exact before j (Nat.lt_of_succ_lt_succ earlier)
      · rintro ⟨i, there, before⟩
        cases i with
        | zero =>
          rw [List.drop_zero, here] at there
          cases there
        | succ i => exact ⟨i, there, fun j earlier => before (j + 1) (Nat.succ_lt_succ earlier)⟩

end

/-- A text that is cut around the digits of a number, which stand before and after a point. -/
structure Numeral where
  before : List Char
  whole : List Char
  fraction : List Char
  after : List Char

namespace Numeral

variable {n m : Numeral} {cs found : List Char}

def text (n : Numeral) : List Char := n.whole ++ '.' :: n.fraction

def isAscii (n : Numeral) : Bool := n.text.all fun c => c.toNat < 128

def decimal (n : Numeral) : Real.Decimal := ⟨number (n.whole ++ n.fraction), -n.fraction.length⟩

def value (n : Numeral) : Float := Real.ofDecimal n.decimal

/-- A text has the number in it, and both of its runs of digits are as long as they can be. -/
structure In (n : Numeral) (cs : List Char) : Prop where
  parts : cs = n.before ++ (n.whole ++ '.' :: (n.fraction ++ n.after))
  whole_ne_nil : n.whole ≠ []
  whole_digits : ∀ c ∈ n.whole, isDecimalDigit c
  fraction_ne_nil : n.fraction ≠ []
  fraction_digits : ∀ c ∈ n.fraction, isDecimalDigit c
  begins : ∀ c ∈ n.before.getLast?, isDecimalDigit c = false
  ends : ∀ c ∈ n.after.head?, isDecimalDigit c = false

def IsFirst (n : Numeral) (cs : List Char) : Prop :=
  n.In cs ∧ ∀ m : Numeral, m.In cs → n.before.length ≤ m.before.length

theorem takeWhile_append_of_stop {p : Char → Bool} {run : List Char} (all : ∀ c ∈ run, p c)
    (rest : List Char) (stops : ∀ c ∈ rest.head?, p c = false) :
    (run ++ rest).takeWhile p = run ∧ (run ++ rest).dropWhile p = rest := by
  rw [List.takeWhile_append_of_pos all, List.dropWhile_append_of_pos all]
  cases rest with
  | nil => simp
  | cons c rest => simp [stops c rfl]

theorem In.numberHere (here : n.In cs) :
    numberHere (cs.drop n.before.length) = some n.text := by
  obtain ⟨before, whole, fraction, after⟩ := n
  obtain ⟨rfl, some, whole_digits, other, fraction_digits, -, ends⟩ := here
  have point : isDecimalDigit '.' = false := by decide
  have first := takeWhile_append_of_stop whole_digits ('.' :: (fraction ++ after))
    (by simpa using point)
  have second := takeWhile_append_of_stop fraction_digits after ends
  obtain ⟨d, run, rfl⟩ := List.exists_cons_of_ne_nil some
  obtain ⟨e, further, rfl⟩ := List.exists_cons_of_ne_nil other
  simp only [FileName.numberHere, List.drop_left, first, second, text]

theorem of_numberHere (here : FileName.numberHere cs = some found) :
    ∃ n : Numeral, n.before = [] ∧ n.In cs ∧ n.text = found := by
  unfold FileName.numberHere at here
  split at here
  · next d run after taken left =>
    split at here
    · cases here
    · next fraction proper =>
      cases here
      have whole : cs = d :: run ++ '.' :: after := by
        rw [← taken, ← left, List.takeWhile_append_dropWhile]
      refine ⟨⟨[], d :: run, after.takeWhile isDecimalDigit, after.dropWhile isDecimalDigit⟩, rfl,
        ⟨?_, nofun, ?_, proper, ?_, nofun, ?_⟩, rfl⟩
      · rw [List.takeWhile_append_dropWhile]
        exact whole
      · exact fun c member => List.mem_takeWhile_imp (taken ▸ member)
      · exact fun c member => List.mem_takeWhile_imp member
      · intro c head
        have stops := List.head?_dropWhile_not isDecimalDigit after
        rw [Option.mem_def.1 head] at stops
        simpa using stops
  · cases here

theorem numberHere_cons {d : Char} (digit : isDecimalDigit d)
    (here : FileName.numberHere cs = some found) : FileName.numberHere (d :: cs) ≠ none := by
  obtain ⟨⟨_, whole, fraction, after⟩, rfl, inside, -⟩ := of_numberHere here
  have longer : Numeral.In ⟨[], d :: whole, fraction, after⟩ (d :: cs) :=
    ⟨congrArg (d :: ·) inside.parts, nofun, List.forall_mem_cons.2 ⟨digit, inside.whole_digits⟩,
      inside.fraction_ne_nil, inside.fraction_digits, nofun, inside.ends⟩
  have found := longer.numberHere
  rw [List.length_nil, List.drop_zero] at found
  simp [found]

theorem exists_isFirst (matched : firstMatch FileName.numberHere cs = some found) :
    ∃ n : Numeral, n.IsFirst cs ∧ n.text = found := by
  obtain ⟨i, here, least⟩ := firstMatch_eq_some_iff.1 matched
  obtain ⟨⟨_, whole, fraction, after⟩, rfl, inside, rfl⟩ := of_numberHere here
  have count : (cs.take i).length ≤ i := List.length_take_le i cs
  refine ⟨⟨cs.take i, whole, fraction, after⟩, ⟨⟨?parts, inside.whole_ne_nil, inside.whole_digits,
    inside.fraction_ne_nil, inside.fraction_digits, ?begins, inside.ends⟩, ?least⟩, rfl⟩
  case parts => exact (List.take_append_drop i cs).symm.trans (congrArg _ inside.parts)
  -- With a digit right before it the number would have begun there.
  case begins =>
    intro d last
    obtain ⟨start, taken⟩ := List.getLast?_eq_some_iff.1 (Option.mem_def.1 last)
    replace taken : cs.take i = start ++ [d] := taken
    by_contra digit
    have left : cs.drop start.length = d :: cs.drop i := by
      conv_lhs => rw [← List.take_append_drop i cs, taken]
      simp
    have earlier : start.length < i := by
      rw [taken, List.length_append, List.length_singleton] at count
      exact count
    exact numberHere_cons (by simpa using digit) here (left ▸ least _ earlier)
  case least =>
    intro m other
    by_contra earlier
    have there := other.numberHere
    rw [least _ (Nat.lt_of_lt_of_le (Nat.lt_of_not_le earlier) count)] at there
    cases there

/-- The first match of a text with a number in it is its first number. -/
theorem IsFirst.firstMatch (first : n.IsFirst cs) :
    firstMatch FileName.numberHere cs = some n.text := by
  have there := first.1.numberHere
  cases matched : FileName.firstMatch FileName.numberHere cs with
  | none =>
    rw [firstMatch_eq_none_iff.1 matched] at there
    cases there
  | some found =>
    obtain ⟨m, same, rfl⟩ := exists_isFirst matched
    -- Neither number begins before the other, and what is read depends on the place alone.
    have place : n.before.length = m.before.length :=
      Nat.le_antisymm (first.2 m same.1) (same.2 n first.1)
    rw [place, same.1.numberHere] at there
    exact there

theorem firstMatch_eq_none_iff_forall :
    FileName.firstMatch FileName.numberHere cs = none ↔ ∀ n : Numeral, ¬ n.In cs := by
  constructor
  · intro unmatched n inside
    have there := inside.numberHere
    rw [firstMatch_eq_none_iff.1 unmatched] at there
    cases there
  · intro nowhere
    cases matched : FileName.firstMatch FileName.numberHere cs with
    | none => rfl
    | some found =>
      obtain ⟨n, first, -⟩ := exists_isFirst matched
      exact absurd first.1 (nowhere n)

/-- A run of decimal digits is read up to the first one that is not an ASCII digit. -/
theorem exists_split {run : List Char} (digits : ∀ c ∈ run, isDecimalDigit c)
    (other : ¬ ∀ c ∈ run, c.toNat < 128) :
    ∃ start d rest, run = start ++ d :: rest ∧ (∀ c ∈ start, c.isDigit) ∧
      isDecimalDigit d ∧ 128 ≤ d.toNat := by
  induction run with
  | nil => exact absurd nofun other
  | cons c run ih =>
    obtain ⟨digit, digits⟩ := List.forall_mem_cons.1 digits
    by_cases ascii : c.toNat < 128
    · have later : ¬ ∀ c ∈ run, c.toNat < 128 := fun all =>
        other (List.forall_mem_cons.2 ⟨ascii, all⟩)
      obtain ⟨start, d, rest, rfl, before, here⟩ := ih digits later
      exact ⟨c :: start, d, rest, rfl,
        List.forall_mem_cons.2 ⟨isDigit_of_isDecimalDigit digit ascii, before⟩, here⟩
    · exact ⟨[], c, run, rfl, nofun, digit, Nat.le_of_not_lt ascii⟩

theorem takeDigits_of_stop {run : List Char} (digits : ∀ c ∈ run, c.isDigit)
    (rest : List Char) (stops : ∀ c ∈ rest.head?, c.isDigit = false) :
    takeDigits (run ++ rest).length (run ++ rest) = (run, rest) := by
  refine takeDigits_append digits (by simp) (.inr ?_)
  cases rest with
  | nil => rfl
  | cons c rest => simp [stops c rfl]

theorem scan_text {whole fraction : List Char} (digits : ∀ c ∈ whole, c.isDigit)
    (further : ∀ c ∈ fraction, c.isDigit) :
    Real.Literal.scan (whole ++ '.' :: fraction) = (⟨whole, some fraction, none⟩, []) := by
  have first := takeDigits_of_stop digits ('.' :: fraction) (by simp)
  have second := takeDigits_of_stop further [] nofun
  rw [List.append_nil] at second
  simp only [Real.Literal.scan, first, second]

theorem ends_literal {d : Char} (far : 128 ≤ d.toNat) :
    d.isDigit = false ∧ d ≠ '.' ∧ ¬ (d = 'e' ∨ d = 'E') := by
  refine ⟨?_, ?_, ?_⟩
  · by_contra digit
    have near := toNat_lt_of_isDigit (by simpa using digit)
    omega
  · rintro rfl
    exact absurd far (by decide)
  · rintro (rfl | rfl) <;> exact absurd far (by decide)

theorem scan_text_of_far {whole fraction : List Char}
    (whole_digits : ∀ c ∈ whole, isDecimalDigit c)
    (fraction_digits : ∀ c ∈ fraction, isDecimalDigit c)
    (other : ¬ ((∀ c ∈ whole, c.toNat < 128) ∧ ∀ c ∈ fraction, c.toNat < 128)) :
    (Real.Literal.scan (whole ++ '.' :: fraction)).2 ≠ [] := by
  -- The literal ends at the first digit of another script, which stands after the point or before.
  by_cases ascii : ∀ c ∈ whole, c.toNat < 128
  · have far : ¬ ∀ c ∈ fraction, c.toNat < 128 := fun all => other ⟨ascii, all⟩
    obtain ⟨start, d, rest, rfl, read, -, far⟩ := exists_split fraction_digits far
    obtain ⟨stops, -, letter⟩ := ends_literal far
    have digits : ∀ c ∈ whole, c.isDigit := fun c member =>
      isDigit_of_isDecimalDigit (whole_digits c member) (ascii c member)
    have first := takeDigits_of_stop digits ('.' :: (start ++ d :: rest)) (by simp)
    have second := takeDigits_of_stop read (d :: rest) (by simpa using stops)
    simp only [Real.Literal.scan, first, second, if_neg letter]
    exact nofun
  · obtain ⟨start, d, rest, rfl, read, -, far⟩ := exists_split whole_digits ascii
    obtain ⟨stops, point, letter⟩ := ends_literal far
    have first := takeDigits_of_stop read (d :: (rest ++ '.' :: fraction))
      (by simpa using stops)
    rw [List.append_assoc, List.cons_append]
    simp only [Real.Literal.scan, first]
    simp [point, letter]

/-- What begins with a digit is no word for a number and has no sign. -/
theorem ofText?_of_digit {d : Char} (digit : isDecimalDigit d) (cs : List Char) :
    Real.ofText? (String.ofList (d :: cs)) =
      if (Real.Literal.scan (d :: cs)).1.hasDigits ∧ (Real.Literal.scan (d :: cs)).2 = [] then
        some (Real.Literal.scan (d :: cs)).1.value
      else none := by
  have minus : d ≠ '-' := by rintro rfl; exact absurd digit (by decide)
  have plus : d ≠ '+' := by rintro rfl; exact absurd digit (by decide)
  have word : Real.wordValue? (d :: cs) = none := by
    have infinite : d ≠ 'i' := by rintro rfl; exact absurd digit (by decide)
    have undefined : d ≠ 'n' := by rintro rfl; exact absurd digit (by decide)
    simp [Real.wordValue?, toLower_of_isDecimalDigit digit, String.ext_iff, infinite, undefined]
  simp [Real.ofText?, word, minus, plus]

theorem isAscii_iff :
    n.isAscii ↔ (∀ c ∈ n.whole, c.toNat < 128) ∧ ∀ c ∈ n.fraction, c.toNat < 128 := by
  simp [isAscii, text]

theorem In.ofText? (inside : n.In cs) :
    Real.ofText? (String.ofList n.text) = if n.isAscii then some n.value else none := by
  obtain ⟨before, whole, fraction, after⟩ := n
  obtain ⟨-, some, whole_digits, -, fraction_digits, -, -⟩ := inside
  obtain ⟨d, run, rfl⟩ := List.exists_cons_of_ne_nil some
  have read := ofText?_of_digit (whole_digits d List.mem_cons_self) (run ++ '.' :: fraction)
  show Real.ofText? (String.ofList (d :: (run ++ '.' :: fraction))) = _
  rw [read]
  by_cases all : isAscii ⟨before, d :: run, fraction, after⟩
  · have ascii := isAscii_iff.1 all
    have scanned := scan_text
      (fun c member => isDigit_of_isDecimalDigit (whole_digits c member) (ascii.1 c member))
      (fun c member => isDigit_of_isDecimalDigit (fraction_digits c member) (ascii.2 c member))
    rw [List.cons_append] at scanned
    rw [scanned, if_pos all, if_pos ⟨rfl, rfl⟩]
    simp [Real.Literal.value, Real.Literal.decimal, value, decimal]
  · have far := scan_text_of_far whole_digits fraction_digits fun ascii => all (isAscii_iff.2 ascii)
    rw [List.cons_append] at far
    rw [if_neg fun read => far read.2, if_neg all]

end Numeral

/-- A point, two polarization letters and another point stand at a place of a text. -/
structure PolarizationAt (cs : List Char) (i : Nat) (a b : Char) : Prop where
  opening : cs[i]? = some '.'
  first : cs[i + 1]? = some a
  second : cs[i + 2]? = some b
  closing : cs[i + 3]? = some '.'
  letters : a ∈ ['x', 'y'] ∧ b ∈ ['x', 'y']

variable {cs found : List Char}

theorem isPolarizationLetter_iff {c : Char} : isPolarizationLetter c ↔ c ∈ ['x', 'y'] := by
  simp [isPolarizationLetter]

theorem PolarizationAt.drop {i : Nat} {a b : Char} (here : PolarizationAt cs i a b) :
    cs.drop i = '.' :: a :: b :: '.' :: cs.drop (i + 4) := by
  rw [List.drop_eq_getElem?_toList_append, here.opening, List.drop_eq_getElem?_toList_append,
    here.first, List.drop_eq_getElem?_toList_append, here.second,
    List.drop_eq_getElem?_toList_append, here.closing]
  rfl

theorem polarizationHere_eq_some_iff {i : Nat} :
    polarizationHere (cs.drop i) = some found ↔
      ∃ a b, PolarizationAt cs i a b ∧ found = [a, b] := by
  constructor
  · intro here
    unfold polarizationHere at here
    split at here
    · next a b rest left =>
      have place (k : Nat) : cs[i + k]? = ('.' :: a :: b :: '.' :: rest)[k]? := by
        rw [← left, List.getElem?_drop]
      split at here
      · next letters =>
        cases here
        rw [Bool.and_eq_true, isPolarizationLetter_iff, isPolarizationLetter_iff] at letters
        exact ⟨a, b, ⟨place 0, place 1, place 2, place 3, letters⟩, rfl⟩
      · cases here
    · cases here
  · rintro ⟨a, b, here, rfl⟩
    have letters := here.letters
    rw [← isPolarizationLetter_iff, ← isPolarizationLetter_iff] at letters
    simp [here.drop, polarizationHere, letters]

theorem polarizationHere_eq_none_iff {i : Nat} :
    polarizationHere (cs.drop i) = none ↔ ∀ a b, ¬ PolarizationAt cs i a b := by
  rw [Option.eq_none_iff_forall_ne_some]
  constructor
  · exact fun none a b here => none _ (polarizationHere_eq_some_iff.2 ⟨a, b, here, rfl⟩)
  · intro none found here
    obtain ⟨a, b, here, -⟩ := polarizationHere_eq_some_iff.1 here
    exact none a b here

theorem polarization_eq_ok_iff {name p : String} :
    polarization name = .ok p ↔
      ∃ i a b, PolarizationAt name.toList i a b ∧
        (∀ j < i, ∀ a b, ¬ PolarizationAt name.toList j a b) ∧ p = String.ofList [a, b] := by
  constructor
  · intro read
    unfold polarization at read
    split at read
    · next found matched =>
      cases read
      obtain ⟨i, here, before⟩ := firstMatch_eq_some_iff.1 matched
      obtain ⟨a, b, there, rfl⟩ := polarizationHere_eq_some_iff.1 here
      exact ⟨i, a, b, there,
        fun j earlier => polarizationHere_eq_none_iff.1 (before j earlier), rfl⟩
    · cases read
  · rintro ⟨i, a, b, here, before, rfl⟩
    have matched : firstMatch polarizationHere name.toList = some [a, b] :=
      firstMatch_eq_some_iff.2 ⟨i, polarizationHere_eq_some_iff.2 ⟨a, b, here, rfl⟩,
        fun j earlier => polarizationHere_eq_none_iff.2 (before j earlier)⟩
    simp only [polarization, matched]

example : (polarization "zen.xxx..xy.yx.uv").toOption = some "xy" := by decide +kernel

theorem polarization_eq_error_iff {name : String} {fault : ObsidFault} :
    polarization name = .error fault ↔
      (∀ i a b, ¬ PolarizationAt name.toList i a b) ∧
        fault = .unrecognizedName name "no polarization in the name" := by
  have unmatched : firstMatch polarizationHere name.toList = none ↔
      ∀ i a b, ¬ PolarizationAt name.toList i a b :=
    firstMatch_eq_none_iff.trans (forall_congr' fun _ => polarizationHere_eq_none_iff)
  rw [← unmatched]
  unfold polarization
  split
  · next matched => simp [matched]
  · next matched => simp [matched, unrecognized, eq_comm]

theorem startDate_of_isFirst {name : String} {n : Numeral} (first : n.IsFirst name.toList) :
    startDate name =
      if n.isAscii then .ok n.value
      else .error (.unrecognizedName name "invalid float literal") := by
  simp only [startDate, first.firstMatch, first.1.ofText?]
  cases n.isAscii <;> rfl

theorem startDate_of_none {name : String} (nowhere : ∀ n : Numeral, ¬ n.In name.toList) :
    startDate name = .error (.unrecognizedName name "no Julian date in the name") := by
  simp only [startDate, Numeral.firstMatch_eq_none_iff_forall.2 nowhere]
  rfl

theorem exists_isFirst_or_none (cs : List Char) :
    (∃ n : Numeral, n.IsFirst cs) ∨ ∀ n : Numeral, ¬ n.In cs := by
  cases matched : firstMatch numberHere cs with
  | none => exact .inr (Numeral.firstMatch_eq_none_iff_forall.1 matched)
  | some found =>
    obtain ⟨n, first, -⟩ := Numeral.exists_isFirst matched
    exact .inl ⟨n, first⟩

theorem startDate_eq_ok_iff {name : String} {jd : Float} :
    startDate name = .ok jd ↔
      ∃ n : Numeral, n.IsFirst name.toList ∧ n.isAscii ∧ jd = n.value := by
  constructor
  · intro read
    rcases exists_isFirst_or_none name.toList with ⟨n, first⟩ | nowhere
    · rw [startDate_of_isFirst first] at read
      split at read
      · next ascii =>
        cases read
        exact ⟨n, first, ascii, rfl⟩
      · cases read
    · rw [startDate_of_none nowhere] at read
      cases read
  · rintro ⟨n, first, ascii, rfl⟩
    rw [startDate_of_isFirst first, if_pos ascii]

/-- Digits before a letter or before two points are no date. -/
example : (startDate "12.x34..5.67.8").toOption.map Float.toBits = some (5.67 : Float).toBits := by
  decide +kernel

theorem startDate_eq_error_iff {name : String} {fault : ObsidFault} :
    startDate name = .error fault ↔
      ((∀ n : Numeral, ¬ n.In name.toList) ∧
          fault = .unrecognizedName name "no Julian date in the name") ∨
        (∃ n : Numeral, n.IsFirst name.toList ∧ n.isAscii = false) ∧
          fault = .unrecognizedName name "invalid float literal" := by
  constructor
  · intro failed
    rcases exists_isFirst_or_none name.toList with ⟨n, first⟩ | nowhere
    · rw [startDate_of_isFirst first] at failed
      split at failed
      · cases failed
      · next other =>
        cases failed
        exact .inr ⟨⟨n, first, by simpa using other⟩, rfl⟩
    · rw [startDate_of_none nowhere] at failed
      cases failed
      exact .inl ⟨nowhere, rfl⟩
  · rintro (⟨nowhere, rfl⟩ | ⟨⟨n, first, other⟩, rfl⟩)
    · exact startDate_of_none nowhere
    · rw [startDate_of_isFirst first, if_neg (by simp [other])]

end ObsCatalog.FileName
