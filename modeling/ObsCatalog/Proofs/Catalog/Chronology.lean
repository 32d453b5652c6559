import ObsCatalog.Catalog.Records
import ObsCatalog.Proofs.Calendar.Order
import ObsCatalog.Proofs.Sql.TextOrder

/-! Creation times in the order of time.

A database knows the creation time of a source as a stamp, which is a text to it. Every field of a
stamp has the same width for all years of four digits, and the fields stand from the greatest unit
to the smallest. So texts are compared as the instants are.
-/

set_option autoImplicit false

namespace ObsCatalog

open Calendar Text
open Sql (Affinity Cell ColumnRef Comparison Expr Scope Term)
open Sql.Cell (orderChars orderChars_cons_same orderChars_padded)

/-- The year of an instant is written as four digits without a sign. -/
def Calendar.Instant.HasPlainYear (t : Instant) : Prop := 0 ≤ t.date.year ∧ t.date.year ≤ 9999

instance (t : Instant) : Decidable t.HasPlainYear := by
  unfold Instant.HasPlainYear; infer_instance

theorem orderChars_two {m n : Nat} (fitsM : m < 100) (fitsN : n < 100) (as bs : List Char) :
    orderChars (padded 2 m ++ as) (padded 2 n ++ bs) = (compare m n).then (orderChars as bs) :=
  orderChars_padded (by decide) fitsM fitsN as bs

namespace Calendar

theorem orderChars_date {a b : Instant} (plainA : a.HasPlainYear) (plainB : b.HasPlainYear)
    (as bs : List Char) :
    orderChars (a.date.text ++ as) (b.date.text ++ bs) =
      (a.date.order b.date).then (orderChars as bs) := by
  have year {t : Instant} (plain : t.HasPlainYear) :
      yearText t.date.year = padded 4 t.date.year.toNat := if_pos plain
  have month (t : Instant) : t.date.month < 100 :=
    Nat.lt_of_le_of_lt t.valid_date.2.1 (by decide)
  have day (t : Instant) : t.date.day < 100 :=
    Nat.lt_of_le_of_lt (Nat.le_trans t.valid_date.2.2.2 (CivilDate.daysInMonth_le _ _)) (by decide)
  -- Years of four digits without a sign are compared as the numbers that they are.
  have years : compare a.date.year.toNat b.date.year.toNat = compare a.date.year b.date.year := by
    obtain ⟨firstA, -⟩ := plainA
    obtain ⟨firstB, -⟩ := plainB
    refine Instant.eq_of_lt_iff_of_gt_iff ?_ ?_
    · simp only [Std.compare_eq_lt]
      omega
    · simp only [Std.compare_eq_gt]
      omega
  have fits {t : Instant} (plain : t.HasPlainYear) : t.date.year.toNat < 10 ^ 4 := by
    obtain ⟨first, last⟩ := plain
    omega
  simp only [CivilDate.text, year plainA, year plainB, List.append_assoc, List.cons_append]
  rw [orderChars_padded (by decide) (fits plainA) (fits plainB), orderChars_cons_same,
    orderChars_two (month a) (month b), orderChars_cons_same, orderChars_two (day a) (day b), years,
    CivilDate.order, Ordering.then_assoc, Ordering.then_assoc]

theorem orderChars_clock (a b : Instant) :
    orderChars a.clockText b.clockText = a.clockOrder b := by
  have hour (t : Instant) : t.hour < 100 := Nat.lt_of_lt_of_le t.hour_lt (by decide)
  have minute (t : Instant) : t.minute < 100 := Nat.lt_of_lt_of_le t.minute_lt (by decide)
  have second (t : Instant) : t.secondOfMinute < 100 :=
    Nat.lt_of_le_of_lt t.secondOfMinute_le (by decide)
  have last := orderChars_two (second a) (second b) [] []
  rw [List.append_nil, List.append_nil] at last
  simp only [Instant.clockText, List.append_assoc, List.cons_append]
  rw [orderChars_two (hour a) (hour b), orderChars_cons_same,
    orderChars_two (minute a) (minute b), orderChars_cons_same, last, Instant.clockOrder]
  cases compare a.secondOfMinute b.secondOfMinute <;> rfl

/-- Stamps stand in the order of what they keep of their instants. -/
theorem order_stamps {a b : Instant} (plainA : a.HasPlainYear) (plainB : b.HasPlainYear) :
    Cell.order.compareBytes (Cell.text (Stamp.write a)).bytes (Cell.text (Stamp.write b)).bytes =
      a.kept.order b.kept := by
  have plain {t : Instant} (plain : t.HasPlainYear) : t.settled.HasPlainYear := by
    rwa [Instant.HasPlainYear, t.date_settled]
  rw [← Stamp.write_settled a, ← Stamp.write_settled b, ← a.wholeSecond_settled,
    ← b.wholeSecond_settled]
  rw [Instant.order_wholeSecond a.isSettled_settled b.isSettled_settled, ← orderChars_clock,
    ← orderChars_cons_same ' ', ← orderChars_date (plain plainA) (plain plainB), orderChars,
    ← Cell.bytes_text, ← Cell.bytes_text]
  rfl

end Calendar

namespace Sql

theorem Affinity.conversion_ne {x y : Option Affinity}
    (textX : ∀ a, x = some a → a.isNumeric = false)
    (textY : ∀ a, y = some a → a.isNumeric = false) : conversion x y ≠ .numeric := by
  cases x with
  | none =>
    cases y with
    | none => simp [conversion]
    | some b =>
      simp only [conversion, textY b rfl, Bool.false_eq_true, if_false]
      split <;> simp
  | some a =>
    cases y with
    | none =>
      simp only [conversion, textX a rfl, Bool.false_eq_true, if_false]
      split <;> simp
    | some b => simp [conversion, textX a rfl, textY b rfl]

theorem Cell.compared_texts {conversion : Affinity.Conversion} (textual : conversion ≠ .numeric)
    (c : Comparison) (s t : String) :
    (text s).compared conversion c (text t) =
      some (c.holds (order.compareBytes (text s).bytes (text t).bytes)) := by
  cases conversion with
  | numeric => exact absurd rfl textual
  | none => rfl
  | text => rfl

/-- The operand is a text and is compared as the text that it is: it is a column of texts or no
column, and no collation is asked for. -/
structure Outcome.IsText (x : Outcome) (text : String) : Prop where
  value : x.value = .ok (.text text)
  single : x.parts = []
  plain : x.collation = none
  textual : ∀ a, x.affinity = some a → a.isNumeric = false

theorem Outcome.IsText.compared {x y : Outcome} {s t : String} (textX : x.IsText s)
    (textY : y.IsText t) (c : Comparison) :
    x.compared c y =
      .ok (some (c.holds (Cell.order.compareBytes (Cell.text s).bytes (Cell.text t).bytes))) := by
  have compared := Cell.compared_texts (Affinity.conversion_ne textX.textual textY.textual) c s t
  simp only [Outcome.compared, textX.single, textY.single, Scalar.compared, textX.value,
    textY.value, textX.plain, textY.plain, bind, Except.bind, pure, Except.pure, Option.orElse,
    HOrElse.hOrElse, OrElse.orElse, Option.getD, compared]

theorem Expr.selects_compare_texts {scope : Scope} {x y : Term} {s t : String}
    (textX : (x.eval scope).IsText s) (textY : (y.eval scope).IsText t) (c : Comparison) :
    (Expr.compare c x y).selects scope =
      c.holds (Cell.order.compareBytes (Cell.text s).bytes (Cell.text t).bytes) := by
  have known : ((Expr.compare c x y).eval scope).truth = .ok (some _) := textX.compared textY c
  rw [selects_of_truth rfl known]
  simp

end Sql

namespace Calendar

end Calendar

end ObsCatalog
