import ObsCatalog.Proofs.Real.Binary64

/-! Doubles that bound other doubles.

Rounding never goes past a double: what is at most a double is rounded to a number that is at most
that double. So the product of two doubles of one or more is finite if two doubles that bound them
have a product that is no greater than the greatest double.
-/

set_option autoImplicit false

namespace ObsCatalog.Real

open Float.Model Float.Model.UnpackedFloat

theorem mantissa_shiftRight (em : ExtendedMantissa) (shift : Nat) :
    (em >>> shift).mantissa = em.mantissa / 2 ^ shift := by
  show (shift.repeat ExtendedMantissa.shiftRightOne em).mantissa = _
  induction shift with
  | zero => simp [Nat.repeat]
  | succ shift ih =>
    rw [Nat.repeat, ExtendedMantissa.shiftRightOne, ih, Nat.div_div_eq_div_mul, Nat.pow_succ]

theorem le_roundedMantissa (em : ExtendedMantissa) :
    em.mantissa ≤ em.roundedMantissa ∧ em.roundedMantissa ≤ em.mantissa + 1 := by
  unfold ExtendedMantissa.roundedMantissa Accuracy.roundToNearestEven
  cases em.accuracy with
  | exact => exact ⟨Nat.le_refl _, Nat.le_succ _⟩
  | inexact place =>
    cases place with
    | lt => exact ⟨Nat.le_refl _, Nat.le_succ _⟩
    | gt => exact ⟨Nat.le_succ _, Nat.le_refl _⟩
    | eq =>
      -- A tie goes to the even one of the two neighbours.
      have parity : em.mantissa % 2 < 2 := Nat.mod_lt _ (by decide)
      dsimp only
      omega

/-- What remains of a significand when bits of it are rounded off. -/
def roundedOff (mantissa shift : Nat) : Nat :=
  (ExtendedMantissa.mk mantissa false false >>> shift).roundedMantissa

theorem le_roundedOff (mantissa shift : Nat) :
    mantissa / 2 ^ shift ≤ roundedOff mantissa shift ∧
      roundedOff mantissa shift ≤ mantissa / 2 ^ shift + 1 := by
  have bounds := le_roundedMantissa (ExtendedMantissa.mk mantissa false false >>> shift)
  rwa [mantissa_shiftRight] at bounds

/-- Nothing is rounded past a number that needs no rounding. -/
theorem roundedOff_le {mantissa shift most : Nat} (below : mantissa ≤ most * 2 ^ shift) :
    roundedOff mantissa shift ≤ most := by
  rcases Nat.lt_or_eq_of_le below with less | rfl
  · have floor : mantissa / 2 ^ shift < most := Nat.div_lt_of_lt_mul (by rwa [Nat.mul_comm])
    have := (le_roundedOff mantissa shift).2
    omega
  · rw [roundedOff, shiftRight_exact]
    exact Nat.le_refl most

/-- A significand is rounded off to 53 bits, or to the least number of 54 bits. -/
theorem roundedOff_full {mantissa : Nat} (least : 2 ^ 52 ≤ mantissa) :
    ∃ full carry, roundedOff mantissa (mantissa.log2 - 52) = full * 2 ^ carry ∧
      2 ^ 52 ≤ full ∧ full < 2 ^ 53 := by
  have some : mantissa ≠ 0 := by omega
  have bits : 52 ≤ mantissa.log2 := (Nat.le_log2 some).2 least
  have low : 2 ^ 52 ≤ mantissa / 2 ^ (mantissa.log2 - 52) := by
    rw [Nat.le_div_iff_mul_le (Nat.two_pow_pos _), ← Nat.pow_add, Nat.add_sub_cancel' bits]
    exact Nat.log2_self_le some
  have high : mantissa / 2 ^ (mantissa.log2 - 52) < 2 ^ 53 := by
    have length : 53 + (mantissa.log2 - 52) = mantissa.log2 + 1 := by omega
    rw [Nat.div_lt_iff_lt_mul (Nat.two_pow_pos _), ← Nat.pow_add, length]
    exact Nat.lt_log2_self
  obtain ⟨above, below⟩ := le_roundedOff mantissa (mantissa.log2 - 52)
  by_cases carries : roundedOff mantissa (mantissa.log2 - 52) = 2 ^ 53
  · exact ⟨2 ^ 52, 1, carries, Nat.le_refl _, by decide⟩
  · exact ⟨_, 0, (Nat.mul_one _).symm, by omega, by omega⟩

theorem shiftToTargetExponent_long {mantissa scale : Nat} (least : 2 ^ 52 ≤ mantissa) :
    shiftToTargetExponent Format.binary64 mantissa ((scale : Int) - 1074) .exact =
      (ExtendedMantissa.mk mantissa false false >>> (mantissa.log2 - 52),
        ((scale + (mantissa.log2 - 52) : Nat) : Int) - 1074) := by
  have bits : 52 ≤ mantissa.log2 := (Nat.le_log2 (by omega)).2 least
  have target : Format.binary64.targetExponent (totalExponent mantissa ((scale : Int) - 1074)) =
      ((scale + (mantissa.log2 - 52) : Nat) : Int) - 1074 := by
    unfold Format.targetExponent totalExponent Format.minExponent Format.mantissaBits
    simp
    omega
  have amount : (((scale + (mantissa.log2 - 52) : Nat) : Int) - 1074 -
      ((scale : Int) - 1074)).toNat = mantissa.log2 - 52 := by
    omega
  have exponent : (scale : Int) - 1074 + (mantissa.log2 - 52 : Nat) =
      ((scale + (mantissa.log2 - 52) : Nat) : Int) - 1074 := by
    omega
  unfold shiftToTargetExponent shiftToExponent
  dsimp only
  rw [target, amount, exponent]
  rfl

theorem roundedOff_mul_le {mantissa scale most place : Nat} (least : 2 ^ 52 ≤ mantissa)
    (short : most < 2 ^ 53) (below : mantissa * 2 ^ scale ≤ most * 2 ^ place) :
    roundedOff mantissa (mantissa.log2 - 52) * 2 ^ (scale + (mantissa.log2 - 52)) ≤
      most * 2 ^ place := by
  generalize shifted : mantissa.log2 - 52 = shift
  have length : 2 ^ 52 * 2 ^ shift ≤ mantissa := by
    have bits : 52 ≤ mantissa.log2 := (Nat.le_log2 (by omega)).2 least
    rw [← Nat.pow_add, ← shifted, Nat.add_sub_cancel' bits]
    exact Nat.log2_self_le (by omega)
  rcases Nat.lt_or_ge place (scale + shift) with fewer | more
  · -- A bound with so few places would be smaller than the number itself.
    obtain ⟨gap, gapped⟩ := Nat.exists_eq_add_of_lt fewer
    have large : 2 ^ 52 * 2 ^ (scale + shift) ≤ mantissa * 2 ^ scale := by
      rw [Nat.pow_add, Nat.mul_comm (2 ^ scale), ← Nat.mul_assoc]
      exact Nat.mul_le_mul_right _ length
    have larger : 2 ^ 53 * 2 ^ place ≤ 2 ^ 52 * 2 ^ (scale + shift) := by
      rw [← Nat.pow_add, ← Nat.pow_add]
      exact Nat.pow_le_pow_right (by decide) (by omega)
    have less : most * 2 ^ place < 2 ^ 53 * 2 ^ place :=
      Nat.mul_lt_mul_of_pos_right short (Nat.two_pow_pos _)
    omega
  · obtain ⟨gap, rfl⟩ := Nat.exists_eq_add_of_le more
    have split : most * 2 ^ (scale + shift + gap) = most * 2 ^ gap * 2 ^ shift * 2 ^ scale := by
      rw [Nat.pow_add, Nat.pow_add]
      ring
    rw [split] at below
    have rounded := roundedOff_le (Nat.le_of_mul_le_mul_right below (Nat.two_pow_pos scale))
    calc roundedOff mantissa shift * 2 ^ (scale + shift)
        ≤ most * 2 ^ gap * 2 ^ (scale + shift) := Nat.mul_le_mul_right _ rounded
      _ = most * 2 ^ (scale + shift + gap) := by
        rw [split, Nat.pow_add]
        ring

/-- A number is rounded to a significand of full length, and not past one that it is at most. -/
theorem roundWithAccuracy_le (sign : Sign) {mantissa scale most place : Nat}
    (least : 2 ^ 52 ≤ mantissa) (short : most < 2 ^ 53)
    (below : mantissa * 2 ^ scale ≤ most * 2 ^ place) :
    ∃ full target : Nat, ∃ positive : 0 < full,
      roundWithAccuracy Format.binary64 sign mantissa ((scale : Int) - 1074) .exact =
        .finite sign full ((target : Int) - 1074) positive ∧
      2 ^ 52 ≤ full ∧ full < 2 ^ 53 ∧ full * 2 ^ target ≤ most * 2 ^ place ∧
      scale + (mantissa.log2 - 52) ≤ target := by
  obtain ⟨full, carry, rounded, low, high⟩ := roundedOff_full least
  have bound := roundedOff_mul_le least short below
  have small : -1074 ≤ ((scale + (mantissa.log2 - 52) + carry : Nat) : Int) - 1074 := by omega
  have again := shiftToTargetExponent_exact low high small carry
  have exponent : ((scale + (mantissa.log2 - 52) + carry : Nat) : Int) - 1074 - carry =
      ((scale + (mantissa.log2 - 52) : Nat) : Int) - 1074 := by
    omega
  rw [exponent, ← rounded] at again
  refine ⟨full, scale + (mantissa.log2 - 52) + carry, by omega, ?_, low, high, ?_, by omega⟩
  · have kept : full ≠ 0 := by omega
    unfold roundWithAccuracy
    rw [shiftToTargetExponent_long least]
    dsimp only
    rw [← roundedOff, again]
    exact dif_neg kept
  · rw [rounded] at bound
    calc full * 2 ^ (scale + (mantissa.log2 - 52) + carry)
        = full * 2 ^ carry * 2 ^ (scale + (mantissa.log2 - 52)) := by
          rw [Nat.pow_add]
          ring
      _ ≤ most * 2 ^ place := bound

theorem toNat_unpackMantissa (x : Float) :
    (@unpackMantissa Format.binary64 x.toModel.toBits.toBitVec).toNat = fractionBits x := by
  have bits : x.toBits = x.toModel.toBits := rfl
  simp [unpackMantissa, fractionBits_eq, bits]

theorem unpackSign_eq_zero {x : Float} (positive : isNegative x = false) :
    @unpackSign Format.binary64 x.toModel.toBits.toBitVec = 0#1 := by
  have bits : x.toBits = x.toModel.toBits := rfl
  have small : x.toModel.toBits.toNat < 2 ^ 63 := by
    rw [← bits]
    exact Nat.lt_of_not_le fun negative => by
      have := (isNegative_iff x).2 negative
      simp [positive] at this
  rw [← BitVec.toNat_inj]
  show (BitVec.extractLsb 63 63 x.toModel.toBits.toBitVec).toNat = 0
  simp [Nat.shiftRight_eq_div_pow]
  omega

/-- A whole number is at most a whole number that is a double, given by a significand and a power
of two. -/
structure Ceiling (n most place : Nat) : Prop where
  short : most < 2 ^ 53
  finite : place < 972
  le : n ≤ most * 2 ^ place

theorem Ceiling.units_le {n most place : Nat} (ceiling : Ceiling n most place) :
    n * 2 ^ unitExponent ≤ most * 2 ^ (place + unitExponent) := by
  rw [Nat.pow_add, ← Nat.mul_assoc]
  exact Nat.mul_le_mul_right _ ceiling.le

/-- A finite double of one or more that is at most a number of units of 2^-1074. -/
structure Bounded (x : Float) (bound : Nat) : Prop where
  positive : isNegative x = false
  large : 1022 ≤ scale x
  finite : exponentBits x < 2047
  le : magnitude x ≤ bound

namespace Bounded

theorem significand_eq {x : Float} {bound : Nat} (bounded : Bounded x bound) :
    significand x = 2 ^ 52 + fractionBits x := by
  have large := bounded.large
  rw [Real.significand_eq, if_neg]
  unfold scale at large
  omega

theorem unpack_eq {x : Float} {bound : Nat} (bounded : Bounded x bound)
    (positive : 0 < significand x) :
    x.toModel.unpack = .finite .positive (significand x) ((scale x : Int) - 1074) positive := by
  have large := bounded.large
  have finite := bounded.finite
  have exponent := toNat_unpackExponent x
  have other : ¬ @unpackExponent Format.binary64 x.toModel.toBits.toBitVec = -1#_ := by
    rw [unpackExponent_eq_allOnes_iff]
    omega
  have normal : ¬ @unpackExponent Format.binary64 x.toModel.toBits.toBitVec = 0#_ := by
    rw [← BitVec.toNat_inj, exponent]
    unfold scale at large
    simp
    omega
  have mantissa : (1#1 ++ @unpackMantissa Format.binary64 x.toModel.toBits.toBitVec).toNat =
      significand x := by
    have fits := fractionBits_lt x
    rw [bounded.significand_eq, BitVec.toNat_append, toNat_unpackMantissa]
    exact (Nat.shiftLeft_add_eq_or_of_lt fits 1).symm
  show UnpackedFloat.unpack Format.binary64 x.toModel.toBits.toBitVec = _
  unfold UnpackedFloat.unpack
  dsimp only
  rw [if_neg other, if_neg normal]
  have place : (exponentBits x : Int) -
      ((Format.binary64.exponentBias : Int) + (Format.binary64.mantissaBitsWithoutImplicit : Int)) =
        (scale x : Int) - 1074 := by
    have bias : (Format.binary64.exponentBias : Int) = 1023 := rfl
    rw [bias]
    unfold scale at large ⊢
    simp
    omega
  -- The proof that the mantissa is positive depends on it, which keeps it from being rewritten.
  have same {s : Sign} {m : Nat} {e : Int} (h : 0 < m) : s = .positive → m = significand x →
      e = (scale x : Int) - 1074 →
      UnpackedFloat.finite s m e h =
        .finite .positive (significand x) ((scale x : Int) - 1074) positive := by
    rintro rfl rfl rfl
    rfl
  exact same _ (by rw [unpackSign_eq_zero bounded.positive]; rfl) mantissa (by rw [exponent]; exact place)

theorem isInf_eq_false {x : Float} {bound : Nat} (bounded : Bounded x bound) :
    x.isInf = false := by
  have positive : 0 < significand x := by
    rw [bounded.significand_eq]
    omega
  show x.toModel.unpack.isInf = false
  rw [bounded.unpack_eq positive]
  rfl

theorem pack_finite {full target bound : Nat} (least : 2 ^ 52 ≤ full) (most : full < 2 ^ 53)
    (large : 1022 ≤ target) (finite : target < 2046) (le : full * 2 ^ target ≤ bound) :
    Bounded (.ofModel (.pack (.finite .positive full ((target : Int) - 1074) (by omega)))) bound := by
  generalize packed : Float.ofModel
    (.pack (.finite .positive full ((target : Int) - 1074) (by omega))) = x
  have bits : x.toBits.toNat = (target + 1) * 2 ^ 52 + (full - 2 ^ 52) := by
    rw [← packed]
    refine (toNat_pack_full .positive least most finite).trans ?_
    simp [Sign.toBitVec]
  have exponent : exponentBits x = target + 1 := by
    rw [exponentBits_eq, bits]
    omega
  have fraction : fractionBits x = full - 2 ^ 52 := by
    rw [fractionBits_eq, bits]
    omega
  have scaled : scale x = target := by
    rw [scale, exponent]
    rfl
  refine ⟨?_, by omega, by omega, ?_⟩
  · rw [Bool.eq_false_iff, ne_eq, isNegative_iff, bits]
    omega
  · rw [magnitude_eq, Real.significand_eq, exponent, fraction, scaled, if_neg (by omega),
      Nat.add_sub_cancel' least]
    exact le

/-- What a number of one or more is rounded to is bounded by each double that bounds it. -/
theorem pack_roundWithAccuracy {mantissa scale most place : Nat} (least : 2 ^ 52 ≤ mantissa)
    (large : 1074 ≤ scale + mantissa.log2) (short : most < 2 ^ 53) (finite : place < 2046)
    (below : mantissa * 2 ^ scale ≤ most * 2 ^ place) :
    Bounded (.ofModel (.pack
      (roundWithAccuracy Format.binary64 .positive mantissa ((scale : Int) - 1074) .exact)))
      (most * 2 ^ place) := by
  obtain ⟨full, target, positive, rounded, low, high, le, up⟩ :=
    roundWithAccuracy_le .positive least short below
  have inside : target < 2046 := by
    have size : 2 ^ (52 + target) < 2 ^ (53 + place) :=
      calc 2 ^ (52 + target) ≤ full * 2 ^ target := by
            rw [Nat.pow_add]
            exact Nat.mul_le_mul_right _ low
        _ ≤ most * 2 ^ place := le
        _ < 2 ^ (53 + place) := by
            rw [Nat.pow_add]
            exact Nat.mul_lt_mul_of_pos_right short (Nat.two_pow_pos place)
    have := (Nat.pow_lt_pow_iff_right (by decide)).1 size
    omega
  rw [rounded]
  exact pack_finite low high (by omega) inside le

/-- The product of two doubles is bounded by each double that bounds the product of their bounds. -/
theorem mul {x y : Float} {a b most place : Nat} (left : Bounded x a) (right : Bounded y b)
    (short : most < 2 ^ 53) (finite : place < 2046)
    (below : a * b ≤ most * 2 ^ place * unitsPerOne) : Bounded (x * y) (most * 2 ^ place) := by
  have leftLarge := left.large
  have rightLarge := right.large
  have leftLeast : 2 ^ 52 ≤ significand x := by
    rw [left.significand_eq]
    omega
  have rightLeast : 2 ^ 52 ≤ significand y := by
    rw [right.significand_eq]
    omega
  -- Both significands are full, so that the product has bits enough to be rounded.
  have least : 2 ^ 52 * 2 ^ 52 ≤ significand x * significand y :=
    Nat.mul_le_mul leftLeast rightLeast
  have bits : 104 ≤ (significand x * significand y).log2 := (Nat.le_log2 (by omega)).2 (by omega)
  have value : significand x * significand y * 2 ^ (scale x + scale y - unitExponent) *
      2 ^ unitExponent = magnitude x * magnitude y := by
    have unit : unitExponent = 1074 := rfl
    have places : scale x + scale y - unitExponent + unitExponent = scale x + scale y := by omega
    rw [Nat.mul_assoc, ← Nat.pow_add, places, Nat.pow_add, magnitude_eq, magnitude_eq]
    ring
  have bound : significand x * significand y * 2 ^ (scale x + scale y - 1074) ≤
      most * 2 ^ place := by
    refine Nat.le_of_mul_le_mul_right ?_ unitsPerOne_pos
    rw [unitsPerOne_eq] at below ⊢
    exact value.trans_le ((Nat.mul_le_mul left.le right.le).trans below)
  have exponent : ((scale x : Int) - 1074) + ((scale y : Int) - 1074) =
      ((scale x + scale y - 1074 : Nat) : Int) - 1074 := by
    omega
  have product := pack_roundWithAccuracy (by omega) (by omega) short finite bound
  rw [← exponent] at product
  show Bounded (.ofModel (.pack (.mul Format.binary64 x.toModel.unpack y.toModel.unpack))) _
  rw [left.unpack_eq (by omega), right.unpack_eq (by omega)]
  exact product

theorem toFloat {n : Nat} (positive : 0 < n) (short : n < 2 ^ 53) :
    Bounded n.toUInt64.toFloat (n * 2 ^ unitExponent) := by
  have unit : unitExponent = 1074 := rfl
  have bits : n.log2 ≤ 52 := by
    have := (Nat.log2_lt (by omega)).2 short
    omega
  have word : n.toUInt64.toNat = n := by
    simp
    omega
  have target : Format.binary64.targetExponent (totalExponent n 0) = (n.log2 : Int) - 52 := by
    unfold Format.targetExponent totalExponent Format.minExponent Format.mantissaBits
    simp
    omega
  -- A number of at most 53 bits is shifted up to its full mantissa, and nothing is rounded.
  have least : 2 ^ 52 ≤ n <<< (52 - n.log2) := by
    calc 2 ^ 52 = 2 ^ n.log2 * 2 ^ (52 - n.log2) := by rw [← Nat.pow_add, Nat.add_sub_cancel' bits]
      _ ≤ n <<< (52 - n.log2) := by
        rw [Nat.shiftLeft_eq]
        exact Nat.mul_le_mul_right _ (Nat.log2_self_le (by omega))
  have size : 52 ≤ (n <<< (52 - n.log2)).log2 := (Nat.le_log2 (by omega)).2 least
  have value : n <<< (52 - n.log2) * 2 ^ (1074 - (52 - n.log2)) = n * 2 ^ unitExponent := by
    have places : 52 - n.log2 + (1074 - (52 - n.log2)) = unitExponent := by omega
    rw [Nat.shiftLeft_eq, Nat.mul_assoc, ← Nat.pow_add, places]
  have rounded := pack_roundWithAccuracy least (by omega) short (by decide) value.le
  have order : compare (n : Int) 0 = .gt := by
    rw [compare_gt_iff_gt]
    omega
  have amount : ((0 : Int) - ((n.log2 : Int) - 52)).toNat = 52 - n.log2 := by omega
  have exponent : (0 : Int) - (52 - n.log2 : Nat) =
      ((1074 - (52 - n.log2) : Nat) : Int) - 1074 := by
    omega
  show Bounded (.ofModel (.pack (.ofNat Format.binary64 n.toUInt64.toNat))) _
  rw [word]
  unfold UnpackedFloat.ofNat UnpackedFloat.ofInt UnpackedFloat.normalize
  simp only [order, Int.toNat_natCast]
  unfold UnpackedFloat.round decreaseExponent
  dsimp only
  rw [target, amount, exponent]
  exact rounded

theorem exactPower (k : Fin 23) :
    Bounded Float.exactlyRepresentablePowersOfTen[k] (10 ^ k.val * unitsPerOne) := by
  have fields : ∀ k : Fin 23, isNegative Float.exactlyRepresentablePowersOfTen[k] = false ∧
      1022 ≤ scale Float.exactlyRepresentablePowersOfTen[k] ∧
      exponentBits Float.exactlyRepresentablePowersOfTen[k] < 2047 ∧
      magnitude Float.exactlyRepresentablePowersOfTen[k] ≤ 10 ^ k.val * unitsPerOne := by
    decide +kernel
  obtain ⟨positive, large, finite, le⟩ := fields k
  exact ⟨positive, large, finite, le⟩

/-- Beyond the table the product is rounded once. -/
theorem ofScientific_pack {n k most place : Nat} (positive : 0 < n) (few : k ≤ 2048)
    (ceiling : Ceiling (n * 10 ^ k) most place) :
    Bounded (.ofModel (.pack (.ofScientific Format.binary64 n k)))
      (most * 2 ^ (place + unitExponent)) := by
  have unit : unitExponent = 1074 := rfl
  have finite := ceiling.finite
  have whole : 0 < n * 10 ^ k := Nat.mul_pos positive (Nat.pow_pos (by decide))
  have shifted : n <<< 53 * 10 ^ k = n * 10 ^ k * 2 ^ 53 := by
    rw [Nat.shiftLeft_eq]
    ring
  have least : 2 ^ 52 ≤ n <<< 53 * 10 ^ k := by
    rw [shifted]
    omega
  have size : 53 ≤ (n <<< 53 * 10 ^ k).log2 := by
    rw [shifted, log2_mul_two_pow whole]
    omega
  have value : n <<< 53 * 10 ^ k * 2 ^ 1021 = n * 10 ^ k * 2 ^ unitExponent := by
    have places : 53 + 1021 = unitExponent := rfl
    rw [shifted, Nat.mul_assoc, ← Nat.pow_add, places]
  have rounded := pack_roundWithAccuracy least (by omega) ceiling.short (by omega)
    (value.trans_le ceiling.units_le)
  have inRange : ¬ (k : Int) > 2 ^ Format.binary64.exponentBits := by
    have : (2 : Int) ^ Format.binary64.exponentBits = 2048 := rfl
    omega
  have notTiny : ¬ (k : Int) < -(2 ^ Format.binary64.exponentBits + n.log2) := by
    have : (0 : Int) ≤ 2 ^ Format.binary64.exponentBits := by positivity
    omega
  unfold UnpackedFloat.ofScientific
  rw [dif_neg (by omega), if_neg inRange, if_neg notTiny, if_pos (by omega)]
  exact rounded

/-- A whole number times a power of ten is, as a double, bounded by each double that bounds it. -/
theorem ofScientific {n k most place : Nat} (positive : 0 < n) (few : k ≤ 2048)
    (ceiling : Ceiling (n * 10 ^ k) most place) :
    Bounded (Float.ofScientific n false k) (most * 2 ^ (place + unitExponent)) := by
  have unit : unitExponent = 1074 := rfl
  have finite := ceiling.finite
  unfold Float.ofScientific
  -- Short numbers are converted as words of 64 bits.
  by_cases short : n < 2 ^ 53 ∧ k ≤ 22
  · have product : n * 2 ^ unitExponent * (10 ^ k * unitsPerOne) ≤
        most * 2 ^ (place + unitExponent) * unitsPerOne := by
      rw [← Nat.mul_assoc, Nat.mul_right_comm n]
      exact Nat.mul_le_mul_right _ ceiling.units_le
    rw [dif_pos short]
    exact (toFloat positive short.1).mul (exactPower ⟨k, by omega⟩) ceiling.short (by omega) product
  · rw [dif_neg short]
    exact ofScientific_pack positive few ceiling

end Bounded

end ObsCatalog.Real
