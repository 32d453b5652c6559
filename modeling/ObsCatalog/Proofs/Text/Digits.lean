import Mathlib.Tactic.IntervalCases
import ObsCatalog.Text.Digits

/-! Digits and the size of their numbers.

A run of digits writes a number below the power of ten that has one digit more. The digits of a
number are as few as that allows, so they begin with zero only for zero itself.
-/

set_option autoImplicit false

namespace ObsCatalog.Text

theorem number_cons (c : Char) (cs : List Char) :
    number (c :: cs) = 10 ^ cs.length * (c.toNat - '0'.toNat) + number cs := by
  rw [number, Nat.ofDigitChars_cons, Nat.ofDigitChars_eq_ofDigitChars_zero, Nat.mul_zero,
    Nat.zero_add]
  rfl

theorem number_lt {cs : List Char} (digits : ∀ c ∈ cs, c.isDigit) : number cs < 10 ^ cs.length := by
  induction cs with
  | nil => decide
  | cons c cs ih =>
    obtain ⟨digit, others⟩ := List.forall_mem_cons.1 digits
    have last : c.toNat - '0'.toNat ≤ 9 := by
      have bound : c.toNat ≤ 57 := (Char.isDigit_iff_toNat.1 digit).2
      show c.toNat - 48 ≤ 9
      omega
    have value := Nat.mul_le_mul_left (10 ^ cs.length) last
    rw [number_cons, List.length_cons, Nat.pow_succ]
    have rest := ih others
    omega

theorem lt_pow_length_digits (n : Nat) : n < 10 ^ (digits n).length :=
  (Nat.length_toDigits_le_iff (by decide) Nat.length_toDigits_pos).1 (Nat.le_refl _)

theorem digits_eq_cons (n : Nat) : ∃ c run, digits n = c :: run ∧ ∀ d ∈ c :: run, d.isDigit := by
  cases shape : digits n with
  | nil => simp [digits] at shape
  | cons c run => exact ⟨c, run, rfl, fun d member => isDigit_of_mem_digits (shape ▸ member)⟩

theorem head?_digits {n : Nat} (positive : 0 < n) : (digits n).head? ≠ some '0' := by
  induction n using Nat.strongRecOn with
  | ind n ih =>
    unfold digits at ih ⊢
    rw [Nat.toDigits_eq_if (by decide)]
    split
    · interval_cases n <;> decide
    · next large =>
      have shorter := ih (n / 10) (by omega) (by omega)
      rw [List.head?_append]
      cases first : (Nat.toDigits 10 (n / 10)).head? with
      | none => simp at first
      | some c => rw [first] at shorter; exact shorter

end ObsCatalog.Text
