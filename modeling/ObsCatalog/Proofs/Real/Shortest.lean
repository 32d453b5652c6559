import Mathlib.Tactic.Ring
import ObsCatalog.Proofs.Real.Binary64
import ObsCatalog.Proofs.Text.Digits
import ObsCatalog.Real.Decimal

/-! The size of shortest decimals.

The shortest decimal of a double has at most seventeen digits, and it does not lie above the
numbers that are read as the double. Below the greatest double these end half a step before it.
-/

set_option autoImplicit false

namespace ObsCatalog.Real

open Text

/-- A decimal of few digits that is at most a number of units of 2^-1076. -/
structure Decimal.AtMost (d : Decimal) (above : Nat) : Prop where
  short : d.coefficient ≤ 10 ^ 17
  zero : d.coefficient = 0 → d.exponent = 0
  le : d.coefficient * (unit * 10 ^ d.exponent.toNat) ≤ above * 10 ^ (-d.exponent).toNat

theorem Decimal.AtMost.trimmed {d : Decimal} {above : Nat} (most : d.AtMost above) :
    d.trimmed.AtMost above := by
  induction d using Decimal.trimmed.induct with
  | case1 d zeros ih =>
    obtain ⟨coefficient, exponent⟩ := d
    obtain ⟨short, -, le⟩ := most
    obtain ⟨tenth, rfl⟩ : 10 ∣ coefficient := Nat.dvd_of_mod_eq_zero zeros.2
    rw [Decimal.trimmed, dif_pos zeros]
    refine ih ⟨by dsimp only at *; omega, by dsimp only at *; omega, ?_⟩
    dsimp only at le ⊢
    rw [Nat.mul_div_cancel_left tenth (by decide)]
    -- The zero counts among the places after the point, or among those before it.
    rcases Int.lt_or_le exponent 0 with fractional | whole
    · have up : exponent.toNat = 0 ∧ (exponent + 1).toNat = 0 := by omega
      have down : (-exponent).toNat = (-(exponent + 1)).toNat + 1 := by omega
      rw [up.1, down] at le
      rw [up.2]
      refine Nat.le_of_mul_le_mul_left (c := 10) ?_ (by decide)
      calc 10 * (tenth * (unit * 10 ^ 0)) = 10 * tenth * (unit * 10 ^ 0) := by ring
        _ ≤ above * 10 ^ ((-(exponent + 1)).toNat + 1) := le
        _ = 10 * (above * 10 ^ (-(exponent + 1)).toNat) := by ring
    · have up : (exponent + 1).toNat = exponent.toNat + 1 := by omega
      have down : (-exponent).toNat = 0 ∧ (-(exponent + 1)).toNat = 0 := by omega
      rw [down.1] at le
      rw [up, down.2]
      calc tenth * (unit * 10 ^ (exponent.toNat + 1))
          = 10 * tenth * (unit * 10 ^ exponent.toNat) := by ring
        _ ≤ above * 10 ^ 0 := le
  | case2 d other =>
    rw [Decimal.trimmed, dif_neg other]
    exact most

theorem mem_of_nearest {tie : TieRule} {decimals : List (Decimal × Nat)} {d : Decimal}
    (taken : nearest tie decimals = some d) : ∃ distance, (d, distance) ∈ decimals := by
  unfold nearest at taken
  grind

theorem unit_pos : 0 < unit := Nat.mul_pos (by decide) unitsPerOne_pos

/-- On a grid that cuts a value after a number of its places, so many digits remain. -/
theorem quotient_lt (value count : Nat) {k : Int} (places : decimalMagnitude value - count = k) :
    value * 10 ^ (-k).toNat / (unit * 10 ^ k.toNat) < 10 ^ count := by
  obtain ⟨far, magnitude⟩ : ∃ far : Nat, decimalMagnitude value =
      (digits (value * Nat.pow 10 far / unit)).length - (far : Int) := ⟨_, rfl⟩
  rw [Nat.pow_eq] at magnitude
  have leading := lt_pow_length_digits (value * 10 ^ far / unit)
  generalize (digits (value * 10 ^ far / unit)).length = length at magnitude leading
  have balance : length + (-k).toNat = count + k.toNat + far := by omega
  have bound : value * 10 ^ far < 10 ^ length * unit := (Nat.div_lt_iff_lt_mul unit_pos).1 leading
  have step : 0 < unit * 10 ^ k.toNat := Nat.mul_pos unit_pos (Nat.pow_pos (by decide))
  rw [Nat.div_lt_iff_lt_mul step]
  refine Nat.lt_of_mul_lt_mul_left (a := 10 ^ far) ?_
  calc 10 ^ far * (value * 10 ^ (-k).toNat) = value * 10 ^ far * 10 ^ (-k).toNat := by ring
    _ < 10 ^ length * unit * 10 ^ (-k).toNat :=
      Nat.mul_lt_mul_of_pos_right bound (Nat.pow_pos (by decide))
    _ = unit * 10 ^ (length + (-k).toNat) := by ring
    _ = 10 ^ far * (10 ^ count * (unit * 10 ^ k.toNat)) := by
      rw [balance]
      ring

/-- A candidate next to a value has no more digits than the value has places on its grid. -/
theorem Neighbourhood.candidates_atMost {n : Neighbourhood} (below : 0 < n.below) {i : Nat}
    (few : i < 17) {d : Decimal} {distance : Nat}
    (near : (d, distance) ∈ n.candidates (decimalMagnitude n.value - (i + 1 : Nat))) :
    d.AtMost n.above := by
  generalize places : decimalMagnitude n.value - (i + 1 : Nat) = k at near
  have quotient := quotient_lt n.value (i + 1) places
  have digits : 10 ^ (i + 1) ≤ 10 ^ 17 := Nat.pow_le_pow_right (by decide) few
  have up : 0 < 10 ^ (-k).toNat := Nat.pow_pos (by decide)
  have least : 0 < n.below * 10 ^ (-k).toNat := Nat.mul_pos below up
  have inside : d.exponent = k ∧
      d.coefficient ≤ n.value * 10 ^ (-k).toNat / (unit * 10 ^ k.toNat) + 1 ∧
      n.below * 10 ^ (-k).toNat ≤ d.coefficient * (unit * 10 ^ k.toNat) ∧
      d.coefficient * (unit * 10 ^ k.toNat) ≤ n.above * 10 ^ (-k).toNat := by
    unfold Neighbourhood.candidates at near
    simp only [Nat.pow_eq] at near
    generalize n.value * 10 ^ (-k).toNat / (unit * 10 ^ k.toNat) = q at near
    generalize unit * 10 ^ k.toNat = step at near ⊢
    obtain ⟨⟨c, w⟩, listed, kept⟩ := List.mem_filterMap.1 near
    obtain ⟨within, same⟩ := Option.ite_none_right_eq_some.1 kept
    cases same
    have count : c ≤ q + 1 := by
      simp at listed
      omega
    have between : n.below * 10 ^ (-k).toNat ≤ c * step ∧ c * step ≤ n.above * 10 ^ (-k).toNat := by
      split at within
      all_goals
        simp at within
        omega
    exact ⟨rfl, count, between⟩
  obtain ⟨exponent, count, low, high⟩ := inside
  have some : d.coefficient ≠ 0 := by
    intro zero
    rw [zero, Nat.zero_mul] at low
    omega
  refine ⟨by omega, fun zero => absurd zero some, ?_⟩
  rw [exponent]
  exact high

theorem shortest_atMost (tie : TieRule) {x : Float} (nonzero : magnitude x ≠ 0) :
    (shortest tie x).AtMost (4 * magnitude x + 2 * 2 ^ scale x) := by
  have below : 0 < (neighbourhood x).below := by
    have gap : 2 ^ scale x ≤ magnitude x := by
      rw [magnitude_eq] at nonzero ⊢
      exact Nat.le_mul_of_pos_left _ (Nat.pos_of_ne_zero (Nat.ne_zero_of_mul_ne_zero_left nonzero))
    have some : 0 < 2 ^ scale x := Nat.two_pow_pos _
    unfold neighbourhood
    simp only [Nat.pow_eq]
    split <;> omega
  unfold shortest
  dsimp only
  refine Decimal.AtMost.trimmed ?_
  cases found : (List.range 17).findSome? fun i => nearest tie ((neighbourhood x).candidates
      (decimalMagnitude (neighbourhood x).value - (i + 1 : Nat))) with
  | none => exact ⟨Nat.zero_le _, fun _ => rfl, by simp⟩
  | some d =>
    obtain ⟨i, listed, taken⟩ := List.exists_of_findSome?_eq_some found
    obtain ⟨distance, near⟩ := mem_of_nearest taken
    exact Neighbourhood.candidates_atMost below (List.mem_range.1 listed) near

/-- Halfway from the double before the greatest one to the greatest. -/
def beforeGreatest : Nat := (2 ^ 54 - 3) * 2 ^ 970

/-- Significands are followed by half a step, up to the greatest one at the greatest scale. -/
theorem halfStep_le {significand scale top : Nat} (short : significand < 2 ^ 53) (inside : scale ≤ top)
    (lesser : scale = top → significand < 2 ^ 53 - 1) :
    (4 * significand + 2) * 2 ^ scale ≤ (2 ^ 55 - 6) * 2 ^ top := by
  rcases Nat.lt_or_eq_of_le inside with less | rfl
  · calc (4 * significand + 2) * 2 ^ scale
        ≤ (2 * (2 ^ 55 - 6)) * 2 ^ scale := Nat.mul_le_mul_right _ (by omega)
      _ = (2 ^ 55 - 6) * 2 ^ (scale + 1) := by ring
      _ ≤ (2 ^ 55 - 6) * 2 ^ top :=
        Nat.mul_le_mul_left _ (Nat.pow_le_pow_right (by decide) less)
  · have := lesser rfl
    exact Nat.mul_le_mul_right _ (by omega)

theorem shortest_le (tie : TieRule) {x : Float} (nonzero : magnitude x ≠ 0)
    (finite : exponentBits x < 2047)
    (lesser : exponentBits x ≠ 2046 ∨ fractionBits x ≠ 2 ^ 52 - 1)
    (whole : 0 ≤ (shortest tie x).exponent) :
    (shortest tie x).coefficient * 10 ^ (shortest tie x).exponent.toNat ≤ beforeGreatest := by
  have le := (shortest_atMost tie nonzero).le
  have places : (-(shortest tie x).exponent).toNat = 0 := by omega
  have fraction := fractionBits_lt x
  have parts : 4 * magnitude x + 2 * 2 ^ scale x = (4 * significand x + 2) * 2 ^ scale x := by
    rw [magnitude_eq]
    ring
  have short : significand x < 2 ^ 53 := by
    rw [significand_eq]
    split <;> omega
  have inside : scale x ≤ 2045 := by
    unfold scale
    omega
  -- The number is not the greatest one, so that half a step above it is still before that.
  have bound := halfStep_le short inside fun top => by
    have exponent : exponentBits x = 2046 := by
      unfold scale at top
      omega
    rw [significand_eq, if_neg (by omega)]
    omega
  have units : beforeGreatest * unit = (2 ^ 55 - 6) * 2 ^ 2045 := by
    decide +kernel
  rw [places, Nat.pow_zero, Nat.mul_one, parts] at le
  refine Nat.le_of_mul_le_mul_right (c := unit) ?_ unit_pos
  rw [units, Nat.mul_assoc, Nat.mul_comm _ unit]
  exact le.trans bound

theorem shortest_congr (tie : TieRule) {x y : Float} (exponent : exponentBits x = exponentBits y)
    (fraction : fractionBits x = fractionBits y) : shortest tie x = shortest tie y := by
  have near : neighbourhood x = neighbourhood y := by
    simp only [neighbourhood, magnitude, significand, scale, exponent, fraction]
    congr
  simp only [shortest, near]

theorem shortest_greatest {x : Float} (exponent : exponentBits x = 2046)
    (fraction : fractionBits x = 2 ^ 52 - 1) :
    shortest .even x = ⟨17976931348623157, 292⟩ := by
  have same : shortest .even x = shortest .even (Float.ofBits 0x7FEFFFFFFFFFFFFF) := by
    refine shortest_congr .even ?_ ?_
    · rw [exponent]
      decide +kernel
    · rw [fraction]
      decide +kernel
  rw [same]
  decide +kernel

end ObsCatalog.Real
