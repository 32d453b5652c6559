import Mathlib.Data.List.DropRight
import ObsCatalog.Proofs.Json.Scalar

/-! Values that are skipped.

A value is skipped as a whole and nothing after it, however deeply it is nested.
-/

set_option autoImplicit false

namespace ObsCatalog.Json

open Text

namespace Reader

theorem skip_scalar {c : Char} {cs : List Char} (takes : Takes skipScalar (c :: cs) ())
    (solid : isBlank (.char c) = false) (list : c ≠ '[') (object : c ≠ '{') {gap : List Char}
    (blank : IsGap gap) (n : Nat) : Takes (skip (n + 1)) (gap ++ c :: cs) () := by
  intro p rest ends
  obtain ⟨q, read⟩ := takes true rest ends
  refine ⟨q, ?_⟩
  rw [chars_cons] at read
  rw [chars_append, chars_cons, skip, bind_ok (valueStart_gap blank solid _ p)]
  simpa [list, object] using read

/-- Looking past the blanks twice is the same as doing it once. -/
theorem blanks_again {before after : Cursor} {s : Option Symbol}
    (seen : blanks before = .ok (s, after)) : blanks after = blanks before := by
  rw [seen]
  simp only [blanks, Except.ok.injEq, Prod.mk.injEq] at seen ⊢
  obtain ⟨rfl, rfl⟩ := seen
  simp only [List.dropWhile_idempotent, and_self]

theorem bind_congr {α β : Type} {first : Reader α} {before after : Cursor}
    (same : first before = first after) (next : α → Reader β) :
    (first >>= next) before = (first >>= next) after := by
  show (first before >>= fun (a, c) => next a c) = (first after >>= fun (a, c) => next a c)
  rw [same]

theorem skipItems_again {before after : Cursor} {s : Option Symbol}
    (seen : blanks before = .ok (s, after)) (n : Nat) :
    skipItems (n + 2) after = skipItems (n + 2) before := by
  have start : skip (n + 1) after = skip (n + 1) before :=
    bind_congr (bind_congr (blanks_again seen) _) _
  exact bind_congr start _

theorem skipMembers_again {before after : Cursor} {s : Option Symbol}
    (seen : blanks before = .ok (s, after)) (n : Nat) :
    skipMembers (n + 1) after = skipMembers (n + 1) before :=
  bind_congr (bind_congr (blanks_again seen) _) _

/-- The value is skipped whatever stands before it, with two steps for each character. -/
def Skips (cs : List Char) : Prop :=
  ∀ n, 2 * cs.length ≤ n → ∀ gap, IsGap gap → Takes (skip n) (gap ++ cs) ()

theorem skipItems_takes {items : List (List Char)} {cs : List Char}
    (skips : ∀ item ∈ items, Skips item) (some : items ≠ []) (laid : Separated Eq items cs)
    {n : Nat} (enough : 2 * cs.length < n) (rest : List Symbol) (p : Bool) :
    skipItems n ⟨chars cs (.char ']' :: rest), p⟩ = .ok ((), ⟨rest, false⟩) := by
  induction laid generalizing n p with
  | none => exact absurd rfl some
  | @one before after cs item hb spelled ha =>
    obtain ⟨k, rfl⟩ : ∃ k, n = k + 1 := ⟨n - 1, by omega⟩
    subst spelled
    simp only [List.length_append] at enough
    obtain ⟨q, read⟩ := skips item List.mem_cons_self k (by omega) before hb p _
      (ends_gap ha (ends_mark (.inr (.inr rfl)) rest))
    rw [chars_append, skipItems, bind_ok read, bind_ok (blanks_gap ha (by decide) rest q)]
    rfl
  | @more before after cs others item next later hb spelled ha tail ih =>
    obtain ⟨k, rfl⟩ : ∃ k, n = k + 1 := ⟨n - 1, by omega⟩
    subst spelled
    simp only [List.length_append, List.length_cons] at enough
    obtain ⟨q, read⟩ := skips item List.mem_cons_self k (by omega) before hb p _
      (ends_gap ha (ends_mark (.inl rfl) (chars others (.char ']' :: rest))))
    rw [chars_append, chars_cons, chars_append, skipItems, bind_ok read,
      bind_ok (blanks_gap ha (by decide) _ q)]
    exact ih (fun item member => skips item (List.mem_cons_of_mem _ member)) (by simp) (by omega)
      false

theorem skipName_title {lead title before : List Char} (hl : IsGap lead) (name : IsString title)
    (hb : IsGap before) (rest : List Symbol) (p : Bool) :
    skipName ⟨chars lead (chars title (chars before (.char ':' :: rest))), p⟩ =
      .ok ((), ⟨rest, false⟩) := by
  cases name with | quoted content =>
  rw [List.cons_append, chars_cons, chars_append, skipName, bind_ok (blanks_gap hl (by decide) _ p)]
  show (advance >>= fun _ => skipString >>= fun _ => colon) _ = _
  rw [bind_ok (advance_cons _ _ _), chars_cons, chars_nil,
    bind_ok (skipString_content content _ false), colon_gap hb]

theorem skipMembers_takes {entries : List (List Char × List Char)} {cs : List Char}
    (names : ∀ e ∈ entries, IsString e.1) (skips : ∀ e ∈ entries, Skips e.2)
    (some : entries ≠ []) (laid : Separated SpellsEntry entries cs) {n : Nat}
    (enough : 2 * cs.length < n) (rest : List Symbol) (p : Bool) :
    skipMembers n ⟨chars cs (.char '}' :: rest), p⟩ = .ok ((), ⟨rest, false⟩) := by
  induction laid generalizing n p with
  | none => exact absurd rfl some
  | @one before after cs entry hb spelled ha =>
    obtain ⟨k, rfl⟩ : ∃ k, n = k + 1 := ⟨n - 1, by omega⟩
    cases spelled with | @named title value left right hl hr =>
    simp only [List.length_append, List.length_cons] at enough
    obtain ⟨q, read⟩ := skips _ List.mem_cons_self k (by simp only; omega) right hr false _
      (ends_gap ha (ends_mark (.inr (.inl rfl)) rest))
    simp only [chars_append, chars_cons, List.append_assoc] at read ⊢
    rw [skipMembers, bind_ok (skipName_title hb (names _ List.mem_cons_self) hl _ p),
      bind_ok read, bind_ok (blanks_gap ha (by decide) rest q)]
    rfl
  | @more before after cs others entry next later hb spelled ha tail ih =>
    obtain ⟨k, rfl⟩ : ∃ k, n = k + 1 := ⟨n - 1, by omega⟩
    cases spelled with | @named title value left right hl hr =>
    simp only [List.length_append, List.length_cons] at enough
    obtain ⟨q, read⟩ := skips _ List.mem_cons_self k (by simp only; omega) right hr false _
      (ends_gap ha (ends_mark (.inl rfl) (chars others (.char '}' :: rest))))
    simp only [chars_append, chars_cons, List.append_assoc] at read ⊢
    rw [skipMembers, bind_ok (skipName_title hb (names _ List.mem_cons_self) hl _ p),
      bind_ok read, bind_ok (blanks_gap ha (by decide) _ q)]
    exact ih (fun e member => names e (List.mem_cons_of_mem _ member))
      (fun e member => skips e (List.mem_cons_of_mem _ member)) (by simp) (by omega) false

theorem blanks_separated {α : Type} {spells : α → List Char → Prop} {items : List α}
    {cs : List Char} (starts : ∀ item ∈ items, ∀ cs, spells item cs →
      ∃ c more, cs = c :: more ∧ startsValue c) (some : items ≠ [])
    (laid : Separated spells items cs) (rest : List Symbol) (p : Bool) :
    ∃ c after, blanks ⟨chars cs rest, p⟩ = .ok (Option.some (.char c), after) ∧ startsValue c := by
  have look {before cs : List Char} (hb : IsGap before) (first : ∃ c more, cs = c :: more ∧
      startsValue c) (rest : List Symbol) : ∃ c after,
      blanks ⟨chars before (chars cs rest), p⟩ = .ok (Option.some (.char c), after) ∧
        startsValue c := by
    obtain ⟨c, more, rfl, opens⟩ := first
    exact ⟨c, _, blanks_gap hb (solid_of_startsValue opens).1 _ p, opens⟩
  cases laid with
  | none => exact absurd rfl some
  | one hb spelled =>
    rw [chars_append, chars_append]
    exact look hb (starts _ List.mem_cons_self _ spelled) _
  | more hb spelled =>
    rw [chars_append, chars_append, chars_append]
    exact look hb (starts _ List.mem_cons_self _ spelled) _

theorem skip_array {items : List (List Char)} {cs : List Char}
    (values : ∀ item ∈ items, IsValue item) (skips : ∀ item ∈ items, Skips item)
    (laid : Separated Eq items cs) : Skips ('[' :: cs ++ [']']) := by
  intro n enough gap blank p rest _
  obtain ⟨k, rfl⟩ : ∃ k, n = k + 2 + 1 := ⟨n - 3, by simp at enough; omega⟩
  refine ⟨false, ?_⟩
  rw [chars_append, List.cons_append, chars_cons, chars_append, skip,
    bind_ok (valueStart_gap blank (by decide) _ p)]
  show (advance >>= fun _ => blanks >>= _) _ = _
  rw [bind_ok (advance_cons _ _ _), chars_cons, chars_nil]
  by_cases none : items = []
  · subst none
    cases laid with | none blank =>
    rw [bind_ok (blanks_gap blank (by decide) rest false)]
    rfl
  · have small : 2 * cs.length < k + 2 := by simp at enough; omega
    have starts (item : List Char) (member : item ∈ items) (cs : List Char) (same : item = cs) :=
      same ▸ (values item member).starts
    -- The gap before the first item is read here already, so the items begin after it.
    obtain ⟨c, after, seen, opens⟩ := blanks_separated starts none laid (.char ']' :: rest) false
    have read := skipItems_takes skips none laid small rest false
    rw [← skipItems_again seen] at read
    rw [bind_ok seen]
    simpa [(solid_of_startsValue opens).2.1] using read

theorem skip_object {entries : List (List Char × List Char)} {cs : List Char}
    (names : ∀ e ∈ entries, IsString e.1) (skips : ∀ e ∈ entries, Skips e.2)
    (laid : Separated SpellsEntry entries cs) : Skips ('{' :: cs ++ ['}']) := by
  intro n enough gap blank p rest _
  obtain ⟨k, rfl⟩ : ∃ k, n = k + 1 + 1 := ⟨n - 2, by simp at enough; omega⟩
  refine ⟨false, ?_⟩
  rw [chars_append, List.cons_append, chars_cons, chars_append, skip,
    bind_ok (valueStart_gap blank (by decide) _ p)]
  show (advance >>= fun _ => blanks >>= _) _ = _
  rw [bind_ok (advance_cons _ _ _), chars_cons, chars_nil]
  by_cases none : entries = []
  · subst none
    cases laid with | none blank =>
    rw [bind_ok (blanks_gap blank (by decide) rest false)]
    rfl
  -- The blanks before the first entry are read once more by the reader of the entries.
  · have small : 2 * cs.length < k + 1 := by simp at enough; omega
    have starts (entry : List Char × List Char) (member : entry ∈ entries) (cs : List Char)
        (spelled : SpellsEntry entry cs) : ∃ c more, cs = c :: more ∧ startsValue c := by
      cases spelled
      cases names _ member
      exact ⟨_, _, rfl, rfl⟩
    obtain ⟨c, after, seen, opens⟩ := blanks_separated starts none laid (.char '}' :: rest) false
    have read := skipMembers_takes names skips none laid small rest false
    rw [← skipMembers_again seen] at read
    rw [bind_ok seen]
    simpa [(solid_of_startsValue opens).2.2.1] using read

/-- By induction on the value: an array or an object uses one step and leaves the others to
what is in it. -/
theorem skips_value {cs : List Char} (value : IsValue cs) : Skips cs := by
  have scalar {c : Char} {cs : List Char} (takes : Takes skipScalar (c :: cs) ())
      (starts : startsValue c ∧ c ≠ '[' ∧ c ≠ '{') : Skips (c :: cs) := by
    intro n enough gap blank
    obtain ⟨k, rfl⟩ : ∃ k, n = k + 1 := ⟨n - 1, by simp at enough; omega⟩
    have solid := (solid_of_startsValue starts.1).1
    exact skip_scalar takes solid starts.2.1 starts.2.2 blank k
  induction value with
  | null => exact scalar (skipScalar_word (.inl ⟨rfl, rfl⟩)) (by decide)
  | yes => exact scalar (skipScalar_word (.inr (.inl ⟨rfl, rfl⟩))) (by decide)
  | no => exact scalar (skipScalar_word (.inr (.inr ⟨rfl, rfl⟩))) (by decide)
  -- What begins with a sign or a digit begins no list and no object.
  | number number =>
    have takes := skipScalar_number number
    obtain ⟨c, more, rfl, kind⟩ := number.starts
    refine scalar takes ?_
    rcases kind with rfl | digit
    · decide
    · refine ⟨by simp [startsValue, digit], ?_, ?_⟩ <;> (rintro rfl; cases digit)
  | text string =>
    have takes := skipScalar_string string
    cases string
    exact scalar takes (by decide)
  | array values laid ih => exact skip_array values ih laid
  | object names _ laid ih => exact skip_object names ih laid

theorem skipValue_takes {gap cs : List Char} (blank : IsGap gap) (value : IsValue cs) :
    Takes skipValue (gap ++ cs) () := by
  intro p rest ends
  have enough : 2 * cs.length ≤ 2 * (chars (gap ++ cs) rest).length + 2 := by
    simp only [chars, List.length_append, List.length_map]
    omega
  exact skips_value value _ enough gap blank p rest ends

end Reader

end ObsCatalog.Json
