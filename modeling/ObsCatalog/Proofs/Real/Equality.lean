import Mathlib
import ObsCatalog.Proofs.Real.Binary64

/-! Equality of doubles.

Two numbers are equal as doubles exactly if they have the same value, which counts in units of
the least positive number. The value tells the fields of a double apart, and so the whole double,
but for the sign of a zero.
-/

set_option autoImplicit false

namespace ObsCatalog.Real

variable {x y : Float}

theorem magnitude_lt (x : Float) : magnitude x < 2 ^ 52 * 2 ^ exponentBits x := by
  have fraction := fractionBits_lt x
  rw [magnitude_eq, significand_eq, scale]
  split
  · next subnormal =>
    rw [subnormal]
    omega
  · next normal =>
    obtain ⟨e, exponent⟩ := Nat.exists_eq_succ_of_ne_zero normal
    rw [exponent, Nat.succ_sub_one]
    calc (2 ^ 52 + fractionBits x) * 2 ^ e < 2 ^ 53 * 2 ^ e :=
          Nat.mul_lt_mul_of_pos_right (by omega) (Nat.two_pow_pos e)
      _ = 2 ^ 52 * 2 ^ (e + 1) := by ring

theorem le_magnitude (normal : exponentBits x ≠ 0) :
    2 ^ 52 * 2 ^ (exponentBits x - 1) ≤ magnitude x := by
  rw [magnitude_eq, significand_eq, if_neg normal, scale]
  exact Nat.mul_le_mul_right _ (by omega)

theorem magnitude_lt_of_exponentBits (less : exponentBits x < exponentBits y) :
    magnitude x < magnitude y := by
  have normal : exponentBits y ≠ 0 := by omega
  calc magnitude x < 2 ^ 52 * 2 ^ exponentBits x := magnitude_lt x
    _ ≤ 2 ^ 52 * 2 ^ (exponentBits y - 1) :=
      Nat.mul_le_mul_left _ (Nat.pow_le_pow_right (by decide) (by omega))
    _ ≤ magnitude y := le_magnitude normal

theorem fields_of_magnitude (same : magnitude x = magnitude y) :
    exponentBits x = exponentBits y ∧ fractionBits x = fractionBits y := by
  have exponent : exponentBits x = exponentBits y := by
    rcases Nat.lt_trichotomy (exponentBits x) (exponentBits y) with less | equal | greater
    · have := magnitude_lt_of_exponentBits less
      omega
    · exact equal
    · have := magnitude_lt_of_exponentBits greater
      omega
  rw [magnitude_eq, magnitude_eq, scale, scale, exponent] at same
  have significand := Nat.eq_of_mul_eq_mul_right (Nat.two_pow_pos _) same
  rw [significand_eq, significand_eq, exponent] at significand
  refine ⟨exponent, ?_⟩
  split at significand <;> omega

theorem eq_of_fields (sign : isNegative x = isNegative y)
    (exponent : exponentBits x = exponentBits y) (fraction : fractionBits x = fractionBits y) :
    x = y :=
  eq_of_toBits (by rw [toNat_toBits x, toNat_toBits y, sign, exponent, fraction])

theorem zero_of_magnitude_zero (zero : magnitude x = 0) : x = 0 ∨ x = -0 := by
  obtain ⟨exponent, fraction⟩ := bits_of_magnitude_zero zero
  have plain : isNegative 0 = false ∧ exponentBits 0 = 0 ∧ fractionBits 0 = 0 := by
    decide +kernel
  have signed : isNegative (-0) = true ∧ exponentBits (-0) = 0 ∧ fractionBits (-0) = 0 := by
    decide +kernel
  cases sign : isNegative x with
  | false =>
    exact .inl (eq_of_fields (sign.trans plain.1.symm) (exponent.trans plain.2.1.symm)
      (fraction.trans plain.2.2.symm))
  | true =>
    exact .inr (eq_of_fields (sign.trans signed.1.symm) (exponent.trans signed.2.1.symm)
      (fraction.trans signed.2.2.symm))

theorem units_of_beq (same : (x == y) = true) : units x = units y := by
  obtain ⟨-, -, rfl | ⟨rfl, rfl⟩ | ⟨rfl, rfl⟩⟩ := Float.beq_iff_ne_nan_and_eq.1 same
  · rfl
  · decide +kernel
  · decide +kernel

theorem beq_of_units (number : x.isNaN = false) (same : units x = units y) : (x == y) = true := by
  have magnitudes : magnitude x = magnitude y := by
    unfold units at same
    split at same <;> split at same <;> omega
  by_cases zero : magnitude x = 0
  · obtain rfl | rfl := zero_of_magnitude_zero zero <;>
      obtain rfl | rfl := zero_of_magnitude_zero (magnitudes ▸ zero) <;> decide +kernel
  · have sign : isNegative x = isNegative y := by
      unfold units at same
      rw [magnitudes] at same zero
      cases left : isNegative x <;> cases right : isNegative y <;> simp [left, right] at same ⊢
      all_goals omega
    obtain ⟨exponent, fraction⟩ := fields_of_magnitude magnitudes
    rw [← eq_of_fields sign exponent fraction]
    exact beq_self number

theorem beq_of_isNaN (missing : y.isNaN = true) : (x == y) = false := by
  rw [Float.isNaN_eq_decide_eq_nan, decide_eq_true_eq] at missing
  rw [missing, Float.beq_nan_eq_false]

theorem units_eq_iff (number : x.isNaN = false) : units x = units y ↔ (x == y) = true :=
  ⟨beq_of_units number, units_of_beq⟩

end ObsCatalog.Real
