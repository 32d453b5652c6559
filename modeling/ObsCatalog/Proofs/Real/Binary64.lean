import ObsCatalog.Real.Binary64
import Mathlib.Tactic.Positivity
import Mathlib.Tactic.Ring
import Mathlib.Tactic.SplitIfs

/-! Whole numbers as doubles.

A double that is a whole number comes back when that number is made a double again: its
significand holds the number in full, so rounding drops nothing and the three fields of
its bits are the ones it had. Zero alone can lose its sign.
-/

set_option autoImplicit false

namespace ObsCatalog.Real

open Float.Model Float.Model.UnpackedFloat

theorem eq_of_toBits {x y : Float} (same : x.toBits.toNat = y.toBits.toNat) : x = y := by
  obtain ⟨⟨a, validA⟩⟩ := x
  obtain ⟨⟨b, validB⟩⟩ := y
  have bits : a = b := UInt64.toNat_inj.1 same
  subst bits
  rfl

theorem fractionBits_eq (x : Float) : fractionBits x = x.toBits.toNat % 2 ^ 52 := rfl

theorem exponentBits_eq (x : Float) :
    exponentBits x = x.toBits.toNat / 2 ^ 52 % 2 ^ 11 := rfl

theorem isNegative_iff (x : Float) : isNegative x ↔ 2 ^ 63 ≤ x.toBits.toNat := decide_eq_true_iff

theorem significand_eq (x : Float) :
    significand x = if exponentBits x = 0 then fractionBits x else 2 ^ 52 + fractionBits x := rfl

theorem magnitude_eq (x : Float) : magnitude x = significand x * 2 ^ scale x := rfl

theorem unitsPerOne_eq : unitsPerOne = 2 ^ unitExponent := by
  unfold unitsPerOne
  generalize unitExponent = n
  rfl

theorem toNat_toBits (x : Float) :
    x.toBits.toNat =
      (if isNegative x then 2 ^ 63 else 0) + exponentBits x * 2 ^ 52 + fractionBits x := by
  have bound := x.toBits.toNat_lt
  simp only [isNegative_iff, exponentBits_eq, fractionBits_eq]
  split <;> omega

theorem exponentBits_lt (x : Float) : exponentBits x < 2 ^ 11 := Nat.mod_lt _ (by decide)

theorem fractionBits_lt (x : Float) : fractionBits x < 2 ^ 52 := Nat.mod_lt _ (by decide)

theorem toNat_unpackExponent (x : Float) :
    (@unpackExponent Format.binary64 x.toModel.toBits.toBitVec).toNat = exponentBits x := by
  have bits : x.toBits = x.toModel.toBits := rfl
  simp [unpackExponent, exponentBits_eq, bits, Nat.shiftRight_eq_div_pow]

theorem unpackExponent_eq_allOnes_iff (x : Float) :
    @unpackExponent Format.binary64 x.toModel.toBits.toBitVec = -1#_ ↔
      exponentBits x = 2047 := by
  rw [← BitVec.toNat_inj, toNat_unpackExponent]
  rfl

theorem isFinite_ite {c : Prop} [Decidable c] {f g : UnpackedFloat} {b : Bool}
    (left : f.isFinite = b) (right : g.isFinite = b) : (if c then f else g).isFinite = b := by
  split
  · exact left
  · exact right

theorem isFinite_dite {c : Prop} [Decidable c] {f : c → UnpackedFloat} {g : ¬ c → UnpackedFloat}
    {b : Bool} (left : ∀ h, (f h).isFinite = b) (right : ∀ h, (g h).isFinite = b) :
    (if h : c then f h else g h).isFinite = b := by
  split
  · exact left _
  · exact right _

theorem isFinite_iff (x : Float) : x.isFinite ↔ exponentBits x ≠ 2047 := by
  rw [ne_eq, ← unpackExponent_eq_allOnes_iff]
  show (UnpackedFloat.unpack Format.binary64 x.toModel.toBits.toBitVec).isFinite = true ↔ _
  unfold UnpackedFloat.unpack
  -- The exponent of all ones is that of infinities and of what is no number.
  by_cases top : @unpackExponent Format.binary64 x.toModel.toBits.toBitVec = -1#_
  · rw [if_pos top]
    refine iff_of_false (fun finite => ?_) (fun other => other top)
    have infinite (sign : Sign) : (UnpackedFloat.infinity sign).isFinite = false := rfl
    have nothing : UnpackedFloat.notANumber.isFinite = false := rfl
    rw [isFinite_ite (infinite _) nothing] at finite
    cases finite
  · rw [if_neg top]
    exact iff_of_true (isFinite_ite (isFinite_dite (fun _ => rfl) fun _ => rfl) rfl) top

theorem compare_self {f : UnpackedFloat} (number : f.isNaN = false) :
    f.compare f = some .eq := by
  cases f with
  | notANumber => cases number
  | infinity sign => cases sign <;> rfl
  | zero sign => rfl
  | finite sign mantissa exponent positive =>
    have same : (compare exponent exponent).then (compare mantissa mantissa) = .eq := by simp
    cases sign with
    | positive => exact congrArg some same
    | negative => exact congrArg (fun o => some o.swap) same

theorem beq_self {x : Float} (number : x.isNaN = false) : (x == x) = true := by
  show (x.toModel.unpack.compare x.toModel.unpack == some .eq) = true
  rw [compare_self number]
  rfl

theorem shiftRight_exact (mantissa shift : Nat) :
    ExtendedMantissa.mk (mantissa * 2 ^ shift) false false >>> shift =
      ExtendedMantissa.mk mantissa false false := by
  show shift.repeat ExtendedMantissa.shiftRightOne _ = _
  induction shift generalizing mantissa with
  | zero => simp [Nat.repeat]
  | succ shift ih =>
    have half : mantissa * 2 ^ (shift + 1) = mantissa * 2 * 2 ^ shift := by
      rw [Nat.pow_succ]
      ring
    rw [Nat.repeat, half, ih]
    simp [ExtendedMantissa.shiftRightOne]

theorem log2_mul_two_pow {mantissa : Nat} (positive : 0 < mantissa) (shift : Nat) :
    (mantissa * 2 ^ shift).log2 = mantissa.log2 + shift := by
  induction shift with
  | zero => simp
  | succ shift ih =>
    have twice : mantissa * 2 ^ (shift + 1) = 2 * (mantissa * 2 ^ shift) := by
      rw [Nat.pow_succ]
      ring
    rw [twice, Nat.log2_two_mul (by positivity), ih]
    rfl

theorem targetExponent_of_full {mantissa : Nat} (least : 2 ^ 52 ≤ mantissa)
    (most : mantissa < 2 ^ 53) {exponent : Int} (small : -1074 ≤ exponent) :
    Format.binary64.targetExponent (totalExponent mantissa exponent) = exponent := by
  have log : mantissa.log2 = 52 := (Nat.log2_eq_iff (by omega)).2 ⟨least, most⟩
  unfold Format.targetExponent totalExponent Format.minExponent Format.mantissaBits
  rw [log]
  simp
  omega

theorem shiftToTargetExponent_exact {mantissa : Nat} (least : 2 ^ 52 ≤ mantissa)
    (most : mantissa < 2 ^ 53) {exponent : Int} (small : -1074 ≤ exponent) (shift : Nat) :
    shiftToTargetExponent Format.binary64 (mantissa * 2 ^ shift) (exponent - shift) .exact =
      (⟨mantissa, false, false⟩, exponent) := by
  have total : totalExponent (mantissa * 2 ^ shift) (exponent - shift) =
      totalExponent mantissa exponent := by
    unfold totalExponent
    rw [log2_mul_two_pow (by omega)]
    omega
  unfold shiftToTargetExponent shiftToExponent
  rw [total, targetExponent_of_full least most small]
  simp [ExtendedMantissa.ofMantissaAndAccuracy, shiftRight_exact]

theorem roundWithAccuracy_exact (sign : Sign) {mantissa : Nat} (least : 2 ^ 52 ≤ mantissa)
    (most : mantissa < 2 ^ 53) {exponent : Int} (small : -1074 ≤ exponent) (shift : Nat) :
    roundWithAccuracy Format.binary64 sign (mantissa * 2 ^ shift) (exponent - shift) .exact =
      .finite sign mantissa exponent (by omega) := by
  -- Nothing is shifted out, so rounding carries nothing and aims at the same exponent again.
  have once := shiftToTargetExponent_exact least most small shift
  have again := shiftToTargetExponent_exact least most small 0
  simp only [Nat.pow_zero, Nat.mul_one, Int.sub_zero, Int.cast_ofNat_Int] at again
  have kept : mantissa ≠ 0 := by omega
  have rounded : (ExtendedMantissa.mk mantissa false false).roundedMantissa = mantissa := rfl
  unfold roundWithAccuracy
  rw [once]
  dsimp only
  rw [rounded, again]
  exact dif_neg kept

/-- A whole number that is a significand of full length times a power of two is rounded
to just that. -/
theorem round_exact (sign : Sign) {whole mantissa scale : Nat} (least : 2 ^ 52 ≤ mantissa)
    (most : mantissa < 2 ^ 53) (same : mantissa * 2 ^ scale = whole * 2 ^ unitExponent) :
    UnpackedFloat.round Format.binary64 sign whole 0 =
      .finite sign mantissa ((scale : Int) - 1074) (by omega) := by
  have unit : unitExponent = 1074 := rfl
  have positive : 0 < whole := by
    have left : 0 < mantissa * 2 ^ scale := by positivity
    rw [same] at left
    exact Nat.pos_of_mul_pos_right left
  have log : mantissa.log2 = 52 := (Nat.log2_eq_iff (by omega)).2 ⟨least, most⟩
  have logs := congrArg Nat.log2 same
  rw [log2_mul_two_pow (by omega), log2_mul_two_pow positive, log] at logs
  have target : Format.binary64.targetExponent (totalExponent whole 0) = (scale : Int) - 1074 := by
    unfold Format.targetExponent totalExponent Format.minExponent Format.mantissaBits
    simp
    omega
  have shifted : UnpackedFloat.round Format.binary64 sign whole 0 =
      roundWithAccuracy Format.binary64 sign (whole * 2 ^ (0 - ((scale : Int) - 1074)).toNat)
        (0 - (0 - ((scale : Int) - 1074)).toNat) .exact := by
    rw [← Nat.shiftLeft_eq, ← target]
    rfl
  have small : -1074 ≤ (scale : Int) - 1074 := by omega
  rw [shifted]
  -- The significand reaches below the units place, or ends above it.
  rcases Nat.lt_or_ge scale 1074 with below | above
  · have amount : ((0 : Int) - ((scale : Int) - 1074)).toNat = 1074 - scale := by omega
    have value : whole * 2 ^ (1074 - scale) = mantissa * 2 ^ 0 := by
      have split : (2 : Nat) ^ unitExponent = 2 ^ (1074 - scale) * 2 ^ scale := by
        rw [← Nat.pow_add]
        congr 1
        omega
      rw [split, ← Nat.mul_assoc] at same
      rw [Nat.pow_zero, Nat.mul_one]
      exact (Nat.eq_of_mul_eq_mul_right (Nat.two_pow_pos scale) same).symm
    have exponent : (0 : Int) - (1074 - scale : Nat) = (scale : Int) - 1074 - (0 : Nat) := by omega
    rw [amount, value, exponent]
    exact roundWithAccuracy_exact sign least most small 0
  · have amount : ((0 : Int) - ((scale : Int) - 1074)).toNat = 0 := by omega
    have value : whole * 2 ^ 0 = mantissa * 2 ^ (scale - 1074) := by
      have split : (2 : Nat) ^ scale = 2 ^ (scale - 1074) * 2 ^ unitExponent := by
        rw [← Nat.pow_add]
        congr 1
        omega
      rw [split, ← Nat.mul_assoc] at same
      rw [Nat.pow_zero, Nat.mul_one]
      exact (Nat.eq_of_mul_eq_mul_right (Nat.two_pow_pos unitExponent) same).symm
    have exponent : (0 : Int) - (0 : Nat) = (scale : Int) - 1074 - (scale - 1074 : Nat) := by omega
    rw [amount, value, exponent]
    exact roundWithAccuracy_exact sign least most small (scale - 1074)

theorem toNat_packComponents (sign : Sign) {exponent fraction mantissa : Nat}
    (fits : exponent < 2 ^ 11) (fractional : mantissa % 2 ^ 52 = fraction) :
    (packComponents Format.binary64 sign (BitVec.ofNat 11 exponent)
        (BitVec.ofNat 52 mantissa)).toNat =
      sign.toBitVec.toNat * 2 ^ 63 + exponent * 2 ^ 52 + fraction := by
  have fractionFits : fraction < 2 ^ 52 := by omega
  unfold packComponents
  simp only [BitVec.toNat_append, BitVec.toNat_ofNat, fractional, Nat.mod_eq_of_lt fits]
  rw [← Nat.shiftLeft_add_eq_or_of_lt fits, ← Nat.shiftLeft_add_eq_or_of_lt fractionFits]
  simp only [Nat.shiftLeft_eq]
  ring

theorem toNat_pack_full (sign : Sign) {mantissa scale : Nat} (least : 2 ^ 52 ≤ mantissa)
    (most : mantissa < 2 ^ 53) (finite : scale < 2046) :
    (UnpackedFloat.pack Format.binary64
        (.finite sign mantissa ((scale : Int) - 1074) (by omega))).toNat =
      sign.toBitVec.toNat * 2 ^ 63 + (scale + 1) * 2 ^ 52 + (mantissa - 2 ^ 52) := by
  have log : mantissa.log2 = 52 := (Nat.log2_eq_iff (by omega)).2 ⟨least, most⟩
  have biased : ((scale : Int) - 1074 + (Format.binary64.exponentBias : Int) +
      (Format.binary64.mantissaBitsWithoutImplicit : Int)).toNat = scale + 1 := by
    have bias : (Format.binary64.exponentBias : Int) = 1023 := rfl
    rw [bias]
    simp
    omega
  unfold UnpackedFloat.pack
  simp only [biased, log]
  rw [if_neg (by simp; omega), if_pos (by rfl)]
  exact toNat_packComponents sign (by omega) (by omega)

theorem isWhole_iff (x : Float) :
    isWhole x ↔ exponentBits x ≠ 2047 ∧ unitsPerOne ∣ magnitude x := by
  simp [isWhole, isFinite_iff, Nat.dvd_iff_mod_eq_zero]

theorem magnitude_of_isWhole {x : Float} (whole : isWhole x) :
    magnitude x = (round x).natAbs * unitsPerOne := by
  obtain ⟨count, value⟩ := ((isWhole_iff x).1 whole).2
  have rounded : (magnitude x + unitsPerOne / 2) / unitsPerOne = count := by
    rw [value, Nat.mul_add_div unitsPerOne_pos, Nat.div_eq_of_lt, Nat.add_zero]
    exact Nat.div_lt_self unitsPerOne_pos (by decide)
  have size : (round x).natAbs = count := by
    unfold round
    simp only [rounded]
    split <;> simp
  rw [size, value, Nat.mul_comm]

theorem round_neg_iff {x : Float} (nonzero : round x ≠ 0) : round x < 0 ↔ isNegative x := by
  unfold round at nonzero ⊢
  generalize (magnitude x + unitsPerOne / 2) / unitsPerOne = count at nonzero ⊢
  by_cases negative : isNegative x
  · simp [negative] at nonzero ⊢
    omega
  · simp [negative]

theorem exponentBits_ne_zero {x : Float} (whole : isWhole x) (nonzero : round x ≠ 0) :
    exponentBits x ≠ 0 := by
  intro subnormal
  have small : magnitude x < unitsPerOne := by
    have fraction := fractionBits_lt x
    rw [magnitude_eq, significand_eq, if_pos subnormal, scale, subnormal, unitsPerOne_eq]
    calc fractionBits x * 2 ^ 0 < 2 ^ 52 := by omega
      _ ≤ 2 ^ unitExponent := Nat.pow_le_pow_right (by decide) (by decide)
  have count : 1 ≤ (round x).natAbs := by omega
  have large := Nat.mul_le_mul_right unitsPerOne count
  have value := magnitude_of_isWhole whole
  omega

/-- The bits of a whole number are those of its rounded absolute value with its sign. -/
theorem toNat_pack_round {x : Float} (whole : isWhole x) (nonzero : round x ≠ 0) (sign : Sign)
    (signBit : sign.toBitVec.toNat * 2 ^ 63 = if isNegative x then 2 ^ 63 else 0) :
    (UnpackedFloat.pack Format.binary64
        (UnpackedFloat.round Format.binary64 sign (round x).natAbs 0)).toNat =
      x.toBits.toNat := by
  have exponentFits := exponentBits_lt x
  have fractionFits := fractionBits_lt x
  have value := magnitude_of_isWhole whole
  rw [magnitude_eq, unitsPerOne_eq] at value
  have finite := ((isWhole_iff x).1 whole).1
  have normal := exponentBits_ne_zero whole nonzero
  have parts : significand x = 2 ^ 52 + fractionBits x := by
    rw [significand_eq, if_neg normal]
  have least : 2 ^ 52 ≤ significand x := by omega
  have most : significand x < 2 ^ 53 := by omega
  have scaleFits : scale x < 2046 := by
    unfold scale
    omega
  have exponent : scale x + 1 = exponentBits x := by
    unfold scale
    omega
  rw [round_exact sign least most value, toNat_pack_full sign least most scaleFits, exponent,
    signBit, toNat_toBits x, parts]
  omega

theorem ofInt_round {x : Float} (whole : isWhole x) (nonzero : round x ≠ 0) :
    ofInt (round x) = x := by
  apply eq_of_toBits
  show (UnpackedFloat.pack Format.binary64 (UnpackedFloat.ofInt Format.binary64 (round x))).toNat =
    x.toBits.toNat
  unfold UnpackedFloat.ofInt UnpackedFloat.normalize
  -- Either sign is rounded from the absolute value.
  rcases Int.lt_or_gt_of_ne nonzero with below | above
  · have negative : isNegative x := (round_neg_iff nonzero).1 below
    have order : compare (round x) 0 = .lt := by simpa [compare_lt_iff_lt] using below
    have amount : (-(round x)).toNat = (round x).natAbs := by omega
    simp only [order, amount]
    exact toNat_pack_round whole nonzero .negative (by simp [negative, Sign.toBitVec])
  · have positive : ¬ isNegative x := fun negative => by
      have below := (round_neg_iff nonzero).2 negative
      omega
    have order : compare (round x) 0 = .gt := by simpa [compare_gt_iff_gt] using above
    have amount : (round x).toNat = (round x).natAbs := by omega
    simp only [order, amount]
    exact toNat_pack_round whole nonzero .positive (by simp [positive, Sign.toBitVec])

theorem bits_of_magnitude_zero {x : Float} (zero : magnitude x = 0) :
    exponentBits x = 0 ∧ fractionBits x = 0 := by
  have empty : significand x = 0 :=
    (Nat.mul_eq_zero.1 zero).resolve_right (Nat.ne_of_gt (Nat.two_pow_pos _))
  rw [significand_eq] at empty
  split at empty
  · next subnormal => exact ⟨subnormal, empty⟩
  · omega

theorem isWhole_of_magnitude_zero {x : Float} (zero : magnitude x = 0) : isWhole x := by
  rw [isWhole_iff, zero, (bits_of_magnitude_zero zero).1]
  exact ⟨by decide, Nat.dvd_zero _⟩

theorem round_eq_zero_iff {x : Float} (whole : isWhole x) : round x = 0 ↔ magnitude x = 0 := by
  rw [magnitude_of_isWhole whole]
  simp [Nat.ne_of_gt unitsPerOne_pos]

theorem ofInt_zero_beq {x : Float} (zero : magnitude x = 0) : (ofInt 0 == x) = true := by
  obtain ⟨exponent, fraction⟩ := bits_of_magnitude_zero zero
  have bits := toNat_toBits x
  rw [exponent, fraction] at bits
  by_cases negative : isNegative x
  · have same : x = .ofModel (.pack (.zero .negative)) := eq_of_toBits (by
      rw [bits, if_pos negative]
      rfl)
    rw [same]
    rfl
  · have same : x = ofInt 0 := eq_of_toBits (by
      rw [bits, if_neg negative]
      rfl)
    rw [same]
    rfl

/-- The number with the sign of a zero dropped. -/
def plainZero (x : Float) : Float := if magnitude x = 0 then ofInt 0 else x

theorem plainZero_beq {x : Float} (number : x.isNaN = false) : (plainZero x == x) = true := by
  unfold plainZero
  split
  · next zero => exact ofInt_zero_beq zero
  · exact beq_self number

theorem isNaN_plainZero {x : Float} (number : x.isNaN = false) : (plainZero x).isNaN = false := by
  unfold plainZero
  split
  · decide +kernel
  · exact number

end ObsCatalog.Real
