import ObsCatalog.Json.Number
import ObsCatalog.Proofs.Real.Bound
import ObsCatalog.Proofs.Real.Shortest

/-! Scaling by powers of ten.

A coefficient that a negative power scales never becomes too large. Neither does the coefficient
of a shortest decimal: rounding it, rounding the power and rounding their product lead at most to
the greatest double.
-/

set_option autoImplicit false

namespace ObsCatalog.Json

open ObsCatalog.Real

theorem scaled_of_neg {exponent : Int} (negative : exponent < 0) (x : Float) :
    ∃ y, scaled x exponent = some y := by
  induction x, exponent using scaled.induct with
  | case1 x exponent near whole => omega
  | case2 x exponent near whole => omega
  | case3 x exponent near fractional =>
    rw [scaled, if_pos near, if_neg fractional]
    exact ⟨_, rfl⟩
  | case4 x exponent far zero =>
    rw [scaled, if_neg far, if_pos zero]
    exact ⟨_, rfl⟩
  | case5 x exponent far some whole => omega
  | case6 x exponent far some fractional ih =>
    rw [scaled, if_neg far, if_neg some, if_neg fractional]
    exact ih (by omega)

/-- The least significand of 53 bits or fewer with which a number is not passed. -/
def roundedUp (n : Nat) : Nat := (n + 2 ^ (n.log2 - 52) - 1) / 2 ^ (n.log2 - 52)

theorem ceiling_roundedUp {n : Nat} (short : roundedUp n < 2 ^ 53) (finite : n.log2 - 52 < 972) :
    Ceiling n (roundedUp n) (n.log2 - 52) := by
  refine ⟨short, finite, ?_⟩
  have positive : 0 < 2 ^ (n.log2 - 52) := Nat.two_pow_pos _
  unfold roundedUp
  generalize 2 ^ (n.log2 - 52) = step at positive ⊢
  have := Nat.lt_div_mul_add (a := n + step - 1) positive
  omega

theorem greatPowers_room : ∀ k < 309, 292 ≤ k →
    roundedUp (beforeGreatest / 10 ^ k) < 2 ^ 53 ∧ (beforeGreatest / 10 ^ k).log2 - 52 < 972 ∧
    roundedUp (10 ^ k) < 2 ^ 53 ∧ (10 ^ k).log2 - 52 < 972 ∧
    roundedUp (beforeGreatest / 10 ^ k) * 2 ^ ((beforeGreatest / 10 ^ k).log2 - 52) *
      (roundedUp (10 ^ k) * 2 ^ ((10 ^ k).log2 - 52)) ≤ (2 ^ 53 - 1) * 2 ^ 971 := by
  decide +kernel

theorem exists_ceilings {coefficient k : Nat} (few : k < 309) (short : coefficient ≤ 10 ^ 17)
    (below : coefficient * 10 ^ k ≤ beforeGreatest) :
    ∃ m i n j, Ceiling coefficient m i ∧ Ceiling (10 ^ k) n j ∧
      m * 2 ^ i * (n * 2 ^ j) ≤ (2 ^ 53 - 1) * 2 ^ 971 := by
  rcases Nat.lt_or_ge k 292 with small | great
  · have power : 10 ^ k ≤ 1 * 2 ^ 967 :=
      (Nat.pow_le_pow_right (by decide) (Nat.le_of_lt_succ small)).trans (by decide +kernel)
    exact ⟨5 ^ 17, 17, 1, 967, ⟨by decide, by decide, short⟩, ⟨by decide, by decide, power⟩,
      by decide +kernel⟩
  · obtain ⟨first, second, third, fourth, product⟩ := greatPowers_room k few great
    have most : coefficient ≤ beforeGreatest / 10 ^ k :=
      (Nat.le_div_iff_mul_le (Nat.pow_pos (by decide))).2 below
    have factor := ceiling_roundedUp first second
    exact ⟨_, _, _, _, ⟨factor.short, factor.finite, most.trans factor.le⟩,
      ceiling_roundedUp third fourth, product⟩

theorem mul_units_le {m i n j most place : Nat} (room : m * 2 ^ i * (n * 2 ^ j) ≤ most * 2 ^ place)
    (units : Nat) :
    m * 2 ^ (i + units) * (n * 2 ^ (j + units)) ≤ most * 2 ^ (place + units) * 2 ^ units :=
  calc m * 2 ^ (i + units) * (n * 2 ^ (j + units))
      = m * 2 ^ i * (n * 2 ^ j) * (2 ^ units * 2 ^ units) := by ring
    _ ≤ most * 2 ^ place * (2 ^ units * 2 ^ units) := Nat.mul_le_mul_right _ room
    _ = most * 2 ^ (place + units) * 2 ^ units := by ring

theorem lt_of_le_beforeGreatest {coefficient k : Nat} (positive : 0 < coefficient)
    (below : coefficient * 10 ^ k ≤ beforeGreatest) : k < 309 := by
  obtain ⟨top, limit, greatest⟩ : ∃ top, top = 309 ∧ beforeGreatest < 10 ^ top :=
    ⟨_, rfl, by decide +kernel⟩
  have power : 10 ^ k ≤ beforeGreatest := (Nat.le_mul_of_pos_left _ positive).trans below
  have shorter : k < top := (Nat.pow_lt_pow_iff_right (by decide)).1 (power.trans_lt greatest)
  omega

/-- A decimal of few digits below the greatest double can be scaled. -/
theorem scaled_of_le {coefficient k : Nat} (positive : 0 < coefficient)
    (short : coefficient ≤ 10 ^ 17) (below : coefficient * 10 ^ k ≤ beforeGreatest) :
    ∃ y, scaled (Float.ofNat coefficient) k = some y := by
  have few := lt_of_le_beforeGreatest positive below
  obtain ⟨m, i, n, j, left, right, room⟩ := exists_ceilings few short below
  have factor : Bounded (Float.ofNat coefficient) (m * 2 ^ (i + unitExponent)) :=
    .ofScientific positive (by decide) (by rwa [Nat.pow_zero, Nat.mul_one])
  have power : Bounded (powerOfTen k) (n * 2 ^ (j + unitExponent)) :=
    .ofScientific (by decide) (by omega) (by rwa [Nat.one_mul])
  have product : m * 2 ^ (i + unitExponent) * (n * 2 ^ (j + unitExponent)) ≤
      (2 ^ 53 - 1) * 2 ^ (971 + unitExponent) * unitsPerOne := by
    rw [unitsPerOne_eq]
    exact mul_units_le room unitExponent
  have finite := (factor.mul power (by decide) (by decide) product).isInf_eq_false
  rw [scaled, if_pos (by omega), if_pos (by omega)]
  simp only [Int.natAbs_natCast, finite]
  exact ⟨_, rfl⟩

theorem scaled_greatest : ∃ y, scaled (Float.ofNat 17976931348623157) 292 = some y := by
  have finite : (Float.ofNat 17976931348623157 * powerOfTen 292).isInf = false := by
    decide +kernel
  rw [scaled, if_pos (by decide), if_pos (by decide)]
  exact ⟨_, if_neg (by simp [finite])⟩

theorem scaled_zero : ∃ y, scaled (Float.ofNat 0) 0 = some y := by
  have finite : (Float.ofNat 0 * powerOfTen 0).isInf = false := by
    decide +kernel
  rw [scaled, if_pos (by decide), if_pos (by decide)]
  exact ⟨_, if_neg (by simp [finite])⟩

/-- What is written for a double is not too large to be read. -/
theorem scaled_shortest {x : Float} (finite : x.isFinite) (nonzero : magnitude x ≠ 0) :
    (shortest .even x).exponent < 309 ∧
      ∃ y, scaled (Float.ofNat (shortest .even x).coefficient) (shortest .even x).exponent =
        some y := by
  have size := shortest_atMost .even nonzero
  have inside : exponentBits x < 2047 := by
    have top := (isFinite_iff x).1 finite
    have := exponentBits_lt x
    omega
  rcases Int.lt_or_le (shortest .even x).exponent 0 with negative | whole
  · exact ⟨by omega, scaled_of_neg negative _⟩
  by_cases greatest : exponentBits x = 2046 ∧ fractionBits x = 2 ^ 52 - 1
  · rw [shortest_greatest greatest.1 greatest.2]
    exact ⟨by decide, scaled_greatest⟩
  have below := shortest_le .even nonzero inside (by omega) whole
  generalize shortest .even x = d at size whole below
  rcases Nat.eq_zero_or_pos d.coefficient with none | some
  · rw [none, size.zero none]
    exact ⟨by decide, scaled_zero⟩
  · rw [← Int.toNat_of_nonneg whole]
    exact ⟨Int.ofNat_lt.2 (lt_of_le_beforeGreatest some below),
      scaled_of_le some size.short below⟩

end ObsCatalog.Json
