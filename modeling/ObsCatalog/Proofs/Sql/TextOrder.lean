import ObsCatalog.Proofs.Sql.Equality
import ObsCatalog.Proofs.Text.Digits

/-! Texts in the order of their bytes.

Digits stand in the order of their values. So of two texts that begin with numbers of the same
width, the one with the smaller number comes first, whatever follows the numbers.
-/

set_option autoImplicit false

namespace ObsCatalog.Sql.Cell

open Text

theorem compareBytes_append {xs ys more others : List UInt8} (same : xs.length = ys.length) :
    order.compareBytes (xs ++ more) (ys ++ others) =
      (order.compareBytes xs ys).then (order.compareBytes more others) := by
  induction xs generalizing ys with
  | nil =>
    obtain rfl : ys = [] := List.length_eq_zero_iff.1 same.symm
    rfl
  | cons x xs ih =>
    cases ys with
    | nil => cases same
    | cons y ys =>
      simp only [List.cons_append, order.compareBytes, ih (Nat.succ.inj same),
        Ordering.then_assoc]

def orderChars (as bs : List Char) : Ordering :=
  order.compareBytes (as.flatMap String.utf8EncodeChar) (bs.flatMap String.utf8EncodeChar)

theorem bytes_text (cs : List Char) :
    (text (String.ofList cs)).bytes = cs.flatMap String.utf8EncodeChar := by
  show (String.ofList cs).toUTF8.toList = _
  rw [toList_toUTF8, String.toByteArray_ofList]
  simp [List.utf8Encode]

theorem orderChars_cons_same (c : Char) (as bs : List Char) :
    orderChars (c :: as) (c :: bs) = orderChars as bs := by
  have same : order.compareBytes (String.utf8EncodeChar c) (String.utf8EncodeChar c) = .eq :=
    compareBytes_eq_iff.2 rfl
  rw [orderChars, List.flatMap_cons, List.flatMap_cons, compareBytes_append rfl, same]
  rfl

theorem utf8EncodeChar_of_isDigit {c : Char} (digit : c.isDigit) :
    String.utf8EncodeChar c = [UInt8.ofNat c.toNat] := by
  have last : c.toNat ≤ '9'.toNat := (Char.isDigit_iff_toNat.1 digit).2
  exact if_pos (Nat.le_trans last (by decide))

theorem length_utf8Encode_of_isDigit {cs : List Char} (digits : ∀ c ∈ cs, c.isDigit) :
    (cs.flatMap String.utf8EncodeChar).length = cs.length := by
  induction cs with
  | nil => rfl
  | cons c cs ih =>
    obtain ⟨digit, others⟩ := List.forall_mem_cons.1 digits
    rw [List.flatMap_cons, utf8EncodeChar_of_isDigit digit, List.length_append, ih others,
      List.length_singleton, List.length_cons, Nat.add_comm]

/-- The first digits are compared first. -/
theorem orderChars_cons_digit {a b : Char} (digitA : a.isDigit) (digitB : b.isDigit)
    (as bs : List Char) :
    orderChars (a :: as) (b :: bs) = (compare a.toNat b.toNat).then (orderChars as bs) := by
  have byte {c : Char} (digit : c.isDigit) : (UInt8.ofNat c.toNat).toNat = c.toNat := by
    have last : c.toNat ≤ 57 := (Char.isDigit_iff_toNat.1 digit).2
    exact UInt8.toNat_ofNat_of_lt' (show c.toNat < 256 by omega)
  rw [orderChars, List.flatMap_cons, List.flatMap_cons, utf8EncodeChar_of_isDigit digitA,
    utf8EncodeChar_of_isDigit digitB, ← byte digitA, ← byte digitB, UInt8.ofNat_toNat,
    UInt8.ofNat_toNat]
  rfl

/-- A greater leading digit outweighs all digits after it. -/
theorem compare_leading {power a b m n : Nat} (firstA : 48 ≤ a) (firstB : 48 ≤ b)
    (fitsM : m < power) (fitsN : n < power) :
    compare (power * (a - '0'.toNat) + m) (power * (b - '0'.toNat) + n) =
      (compare a b).then (compare m n) := by
  show compare (power * (a - 48) + m) (power * (b - 48) + n) = _
  rcases Nat.lt_trichotomy a b with less | rfl | greater
  · have value := Nat.mul_le_mul_left power (show a - 48 + 1 ≤ b - 48 by omega)
    rw [Nat.mul_succ] at value
    rw [Nat.compare_eq_lt.2 less]
    exact Nat.compare_eq_lt.2 (by omega)
  · rw [Nat.compare_eq_eq.2 rfl]
    show _ = compare m n
    simp only [Nat.compare_eq_ite_lt, Nat.add_lt_add_iff_left]
  · have value := Nat.mul_le_mul_left power (show b - 48 + 1 ≤ a - 48 by omega)
    rw [Nat.mul_succ] at value
    rw [Nat.compare_eq_gt.2 greater]
    exact Nat.compare_eq_gt.2 (by omega)

/-- Digits of the same count stand in the order of the numbers that they write. -/
theorem orderChars_digits {as bs : List Char} (digitsA : ∀ c ∈ as, c.isDigit)
    (digitsB : ∀ c ∈ bs, c.isDigit) (same : as.length = bs.length) :
    orderChars as bs = compare (number as) (number bs) := by
  induction as generalizing bs with
  | nil =>
    obtain rfl : bs = [] := List.length_eq_zero_iff.1 same.symm
    rfl
  | cons a as ih =>
    cases bs with
    | nil => cases same
    | cons b bs =>
      obtain ⟨digitA, othersA⟩ := List.forall_mem_cons.1 digitsA
      obtain ⟨digitB, othersB⟩ := List.forall_mem_cons.1 digitsB
      have count : as.length = bs.length := Nat.succ.inj same
      have firstA : 48 ≤ a.toNat := (Char.isDigit_iff_toNat.1 digitA).1
      have firstB : 48 ≤ b.toNat := (Char.isDigit_iff_toNat.1 digitB).1
      have restA := number_lt othersA
      have restB := number_lt othersB
      rw [orderChars_cons_digit digitA digitB, ih othersA othersB count, number_cons, number_cons,
        ← count]
      rw [← count] at restB
      exact (compare_leading firstA firstB restA restB).symm

theorem orderChars_padded {width m n : Nat} (positive : 0 < width) (fitsM : m < 10 ^ width)
    (fitsN : n < 10 ^ width) (as bs : List Char) :
    orderChars (Text.padded width m ++ as) (Text.padded width n ++ bs) =
      (compare m n).then (orderChars as bs) := by
  have length {k : Nat} (fits : k < 10 ^ width) : (Text.padded width k).length = width :=
    length_padded ((Nat.length_toDigits_le_iff (by decide) positive).2 fits)
  have digits (k : Nat) : ∀ c ∈ Text.padded width k, c.isDigit := fun _ => isDigit_of_mem_padded
  have bytes := (length_utf8Encode_of_isDigit (digits m)).trans
    ((length fitsM).trans ((length fitsN).symm.trans (length_utf8Encode_of_isDigit (digits n)).symm))
  have numbers := orderChars_digits (digits m) (digits n) ((length fitsM).trans (length fitsN).symm)
  rw [number_padded, number_padded, orderChars] at numbers
  rw [orderChars, List.flatMap_append, List.flatMap_append, compareBytes_append bytes, numbers]
  rfl

end ObsCatalog.Sql.Cell
