import ObsCatalog.Catalog.Filter
import ObsCatalog.Proofs.Real.Equality
import ObsCatalog.Proofs.Sql.Meaning

/-! Equality with a parameter.

A column that is compared with one parameter selects the rows whose cell in it equals the value of
the parameter: numbers by value, texts byte for byte. Nothing equals null, not even null.
-/

set_option autoImplicit false

namespace ObsCatalog.Sql

theorem toList_loop_eq (bytes : ByteArray) (i : Nat) (done : List UInt8) :
    ByteArray.toList.loop bytes i done = done.reverse ++ bytes.data.toList.drop i := by
  fun_induction ByteArray.toList.loop bytes i done with
  | case1 i done within ih =>
    have inside : i < bytes.data.toList.length := by simpa using within
    have byte : bytes.get! i = bytes.data.toList[i] := getElem!_pos bytes.data i within
    rw [ih, List.drop_eq_getElem_cons inside, byte, List.reverse_cons, List.append_assoc]
    rfl
  | case2 i done beyond =>
    rw [List.drop_eq_nil_of_le (by simpa using Nat.le_of_not_lt beyond), List.append_nil]

theorem toList_toUTF8 (s : String) : s.toUTF8.toList = s.toByteArray.data.toList := by
  rw [ByteArray.toList, toList_loop_eq]
  simp

theorem eq_of_toUTF8 {a b : String} (same : a.toUTF8.toList = b.toUTF8.toList) : a = b := by
  rw [toList_toUTF8, toList_toUTF8, Array.toList_inj] at same
  exact String.toByteArray_inj.1 (ByteArray.ext same)

namespace Cell

theorem compareBytes_eq_iff {xs ys : List UInt8} : order.compareBytes xs ys = .eq ↔ xs = ys := by
  induction xs generalizing ys with
  | nil => cases ys <;> simp [order.compareBytes]
  | cons x xs ih =>
    cases ys with
    | nil => simp [order.compareBytes]
    | cons y ys =>
      simp [order.compareBytes, Ordering.then_eq_eq, ih, UInt8.toNat_inj]

theorem order_text_eq_iff {a b : String} : (text a).order (text b) = .eq ↔ a = b := by
  simp only [order, rank, units?, bytes, Option.getD_none, Ordering.then_eq_eq,
    compareBytes_eq_iff]
  simp
  exact ⟨eq_of_toUTF8, fun same => same ▸ rfl⟩

theorem order_real_eq_iff {x y : Float} (number : x.isNaN = false) :
    (real x).order (real y) = .eq ↔ (x == y) = true := by
  simp [order, rank, units?, bytes, order.compareBytes, Real.units_eq_iff number]

theorem compared_null (conversion : Affinity.Conversion) (c : Comparison) (a : Cell) :
    a.compared conversion c .null = none := by
  simp [compared, isNull]

theorem compared_text (a b : String) :
    (text a).compared .text .equal (text b) = some (a == b) := by
  show some ((text a).order (text b) == .eq) = some (a == b)
  rw [Option.some.injEq, Bool.eq_iff_iff, beq_iff_eq, beq_iff_eq, order_text_eq_iff]

theorem compared_real {x : Float} (number : x.isNaN = false) (y : Float) :
    (real x).compared .numeric .equal (real y) = some (x == y) := by
  show some ((real x).order (real y) == .eq) = some (x == y)
  rw [Option.some.injEq, Bool.eq_iff_iff, beq_iff_eq, order_real_eq_iff number]

end Cell

namespace Token

variable {c : Char} {cs : List Char}

theorem isNameStart_of_isColumnStart (start : Filter.isColumnStart c) : isNameStart c := by
  simp only [Filter.isColumnStart, Bool.or_eq_true] at start
  rcases start with letter | low
  · simp [isNameStart, letter]
  · simp [isNameStart, low]

theorem isNameChar_of_isColumnChar (inside : Filter.isColumnChar c) : isNameChar c := by
  simp only [Filter.isColumnChar, Char.isAlphanum, Bool.or_eq_true] at inside
  rcases inside with (letter | digit) | low
  · simp [isNameChar, isNameStart, letter]
  · simp [isNameChar, digit]
  · simp [isNameChar, isNameStart, low]

theorem gap_of_isColumnStart (start : Filter.isColumnStart c) (rest : List Char) :
    gap (c :: rest) = 0 ∧ isOpenComment (c :: rest) = false := by
  have other : ∀ d : Char, Filter.isColumnStart d = false → c ≠ d := by
    rintro d none rfl
    rw [start] at none
    cases none
  have solid : isSpace c = false := by
    simp [isSpace, other ' ' rfl, other '\t' rfl, other '\n' rfl, other '\x0c' rfl,
      other '\r' rfl]
  constructor
  · rw [gap.eq_3 _ _ (fun _ minus => absurd minus (other '-' rfl))
      (fun _ _ slash => absurd slash (other '/' rfl)), solid, if_neg (by simp),
      if_neg (other '\uFEFF' rfl)]
  · exact isOpenComment.eq_3 _ (fun _ same => absurd (List.cons.inj same).1 (other '-' rfl))
      fun _ same => absurd (List.cons.inj same).1 (other '/' rfl)

theorem first_name (start : Filter.isColumnStart c) (inside : cs.all Filter.isColumnChar)
    (plain : keyword? (lowercase (c :: cs)) = none) (rest : List Char)
    (ends : rest.takeWhile isNameChar = []) (quote : rest.head? ≠ some '\'') :
    first c (cs ++ rest) = (.name (String.ofList (c :: cs)), cs.length + 1) := by
  have other : beginsBlob c (cs ++ rest) = false := by
    have next : (cs ++ rest).head? ≠ some '\'' := by
      cases cs with
      | nil => exact quote
      | cons d cs =>
        rintro ⟨⟩
        exact absurd (List.all_eq_true.1 inside _ List.mem_cons_self) (by decide)
    rw [beginsBlob, decide_eq_false next, Bool.and_false]
  have word : (cs ++ rest).takeWhile isNameChar = cs := by
    rw [List.takeWhile_append_of_pos fun d member =>
      isNameChar_of_isColumnChar (List.all_eq_true.1 inside d member), ends, List.append_nil]
  simp [first, other, isNameStart_of_isColumnStart start, word, ofWord, plain]

end Token

def IsPlainName (column : String) : Prop :=
  Filter.isColumnName column ∧ Token.keyword? (Token.lowercase column.toList) = none

def equalityLexemes (column : String) : List Lexeme :=
  let place := Token.byteCount column.toList
  [⟨.name column, column, 0⟩, ⟨.comparison .equal, "=", place + 1⟩,
    ⟨.parameter .anonymous 0, "?", place + 3⟩]

theorem cut_equals_parameter (place : Nat) :
    Token.Cut place [' ', '=', ' ', '?']
      [⟨.comparison .equal, "=", place + 1⟩, ⟨.parameter .anonymous 0, "?", place + 3⟩] := by
  refine @Token.Cut.gap _ ' ' [] _ _ rfl rfl ?_
  refine @Token.Cut.token _ '=' [] _ (.comparison .equal) _ rfl rfl rfl nofun ?_
  refine @Token.Cut.gap _ ' ' [] _ _ rfl rfl ?_
  exact @Token.Cut.token _ '?' [] _ (.parameter .anonymous 0) _ rfl rfl rfl nofun (.nil _)

/-- A column's name and what compares it with a parameter make one whole condition. -/
theorem whole_equality {column : String} (plain : IsPlainName column) :
    Condition.Whole (column ++ " = ?") (equalityLexemes column)
      (.compare .equal (.column (.column none column false 0)) (.parameter 1)) := by
  obtain ⟨named, word⟩ := plain
  unfold Filter.isColumnName at named
  split at named
  · cases named
  next c cs shape =>
  rw [Bool.and_eq_true] at named
  obtain ⟨start, inside⟩ := named
  have name : column = String.ofList (c :: cs) := by rw [← shape, String.ofList_toList]
  have text : (column ++ " = ?").toList = c :: (cs ++ [' ', '=', ' ', '?']) := by
    rw [String.toList_append, shape]
    rfl
  refine ⟨?clean, ?cut, ?begins, ?anonymous, expression_equality⟩
  case clean =>
    rw [text]
    have first : '\x00' ≠ c := by
      rintro rfl
      exact absurd start (by decide)
    have others : '\x00' ∉ cs := fun member =>
      absurd (List.all_eq_true.1 inside _ member) (by decide)
    simp [first, others]
  case cut =>
    rw [shape] at word
    -- The name is one token: it is no keyword, and the blank behind it ends it.
    obtain ⟨solid, closed⟩ := Token.gap_of_isColumnStart start (cs ++ [' ', '=', ' ', '?'])
    have read := Token.first_name start inside word [' ', '=', ' ', '?'] rfl nofun
    rw [text, equalityLexemes, shape, name]
    refine @Token.Cut.token 0 c cs _ _ _ solid closed read (by simp) ?_
    rw [Nat.zero_add]
    exact cut_equals_parameter _
  case begins =>
    rintro _ ⟨⟩
    rfl
  case anonymous => simp [equalityLexemes, Token.Anonymous, Token.isAnonymous]

def StoredRow.cell (r : StoredRow) (c : ColumnRef) : Cell := Scope.column ⟨r.id, r.cells, []⟩ c

def StoredRow.matches (r : StoredRow) (c : ColumnRef) (v : Cell) : Bool :=
  (r.cell c).compared (Affinity.conversion (some c.affinity) none) .equal v == some true

/-- An equality is true for the rows with an equal cell, and it does not fail. -/
theorem Select.means_equality {engine : Engine} {db : Database} {t : Table} {column : String}
    {c : ColumnRef} (plain : IsPlainName column) (known : Mention.columnOf t column = some c)
    (v : Cell) : Means engine db t (column ++ " = ?") [v] (fun r => r.matches c v) True :=
  ⟨_, _, _, whole_equality plain, rfl, resolve_equality known 1 0,
    fun _ => steady_equality t c 1 [v],
    fun r => Expr.selects_equality ⟨r.id, r.cells, [v]⟩ c 1⟩

end ObsCatalog.Sql
