import ObsCatalog.Proofs.Real.Binary64
import ObsCatalog.Sql.Affinity

/-! Columns of reals.

A column of reals keeps a number as it is, except that a zero loses its sign on the way
through the integers. What is no number leaves its cell empty.
-/

set_option autoImplicit false

namespace ObsCatalog.Sql.Affinity

@[simp] theorem stored_null (affinity : Affinity) : stored affinity .null = .null := by
  cases affinity <;> rfl

@[simp] theorem stored_real (x : Float) : stored .real (.real x) = .real (Real.plainZero x) := by
  have least : Int64.minValue.toInt = -2 ^ 63 := by decide
  have greatest : Int64.maxValue.toInt = 2 ^ 63 - 1 := by decide
  show widened (integral (.real x)) = .real (Real.plainZero x)
  by_cases whole : Real.isWhole x
  · have zero := Real.round_eq_zero_iff whole
    simp only [integral, Real.whole?, whole, if_true]
    split
    · next fits =>
      have same : (Int64.ofInt (Real.round x)).toInt = Real.round x :=
        Int64.toInt_ofInt_of_le (by omega) (by omega)
      simp only [widened, same, Real.plainZero]
      split
      · next none => rw [zero.2 none]
      · next some => rw [Real.ofInt_round whole (fun none => some (zero.1 none))]
    · next large =>
      have some : ¬ Real.magnitude x = 0 := fun none => by
        have small := zero.2 none
        omega
      simp [widened, Real.plainZero, some]
  · have some : ¬ Real.magnitude x = 0 := fun none =>
      whole (Real.isWhole_of_magnitude_zero none)
    simp [integral, Real.whole?, whole, widened, Real.plainZero, some]

theorem stored_of_isNaN {x : Float} (missing : x.isNaN = true) :
    stored .real (Cell.ofValue (.real x)) = .null := by
  rw [Cell.ofValue, if_pos missing, stored_null]

theorem stored_of_isNaN_false {x : Float} (number : x.isNaN = false) :
    stored .real (Cell.ofValue (.real x)) = .real (Real.plainZero x) := by
  rw [Cell.ofValue, if_neg (Bool.eq_false_iff.1 number), stored_real]

end ObsCatalog.Sql.Affinity
