import ObsCatalog.Proofs.Json.Members

/-! Where readers stop.

A reader of a value may fail on a text that is well formed. Where it succeeds, it stops
at the end of the value, whatever it made of it.
-/

set_option autoImplicit false

namespace ObsCatalog.Json

open Text

namespace Reader

/-- Where the reader succeeds on the text, it stops at its end, and the condition holds of what
it yields. -/
def Yields {α : Type} (r : Reader α) (cs : List Char) (post : α → Prop) : Prop :=
  ∀ p rest a after, Ends rest → r ⟨chars cs rest, p⟩ = .ok (a, after) → after.rest = rest ∧ post a

def YieldsValue {α : Type} (r : Reader α) (value : List Char) (post : α → Prop) : Prop :=
  ∀ gap, IsGap gap → Yields r (gap ++ value) post

def YieldsMember {α : Type} (r : Reader α) (value : List Char) (post : α → Prop) : Prop :=
  ∀ before after, IsGap before → IsGap after → Yields r (before ++ ':' :: (after ++ value)) post

theorem of_bind {α β : Type} {first : Reader α} {next : α → Reader β} {before after : Cursor}
    {b : β} (read : (first >>= next) before = .ok (b, after)) :
    ∃ a between, first before = .ok (a, between) ∧ next a between = .ok (b, after) := by
  cases result : first before with
  | error fault =>
    have failed : (first >>= next) before = .error fault := by
      show (first before >>= fun (a, c) => next a c) = _
      rw [result]
      rfl
    rw [failed] at read
    cases read
  | ok found =>
    rw [bind_ok result] at read
    exact ⟨found.1, found.2, rfl, read⟩

theorem of_map {α β : Type} {r : Reader α} {f : α → β} {before after : Cursor} {b : β}
    (read : (f <$> r) before = .ok (b, after)) : ∃ a, r before = .ok (a, after) ∧ b = f a := by
  cases result : r before with
  | error fault =>
    have failed : (f <$> r) before = .error fault := by
      show (r before >>= fun (a, c) => Except.ok (f a, c)) = _
      rw [result]
      rfl
    rw [failed] at read
    cases read
  | ok found =>
    rw [map_ok result] at read
    cases read
    exact ⟨_, rfl, rfl⟩

theorem Takes.yields {α : Type} {r : Reader α} {cs : List Char} {a : α} (takes : Takes r cs a) :
    Yields r cs (· = a) := by
  intro p rest b after ends ok
  obtain ⟨q, read⟩ := takes p rest ends
  rw [read] at ok
  cases ok
  exact ⟨rfl, rfl⟩

theorem Accepts.stops {α : Type} {r : Reader α} {j : Json} {a : α} (accepts : Accepts r j a)
    {value : List Char} (spelled : Spells j value) : YieldsValue r value fun _ => True := by
  intro gap blank p rest b after ends ok
  exact ⟨((accepts gap value blank spelled).yields p rest b after ends ok).1, trivial⟩

theorem Yields.weaken {α : Type} {r : Reader α} {cs : List Char} {post weaker : α → Prop}
    (yields : Yields r cs post) (weakens : ∀ a, post a → weaker a) : Yields r cs weaker := by
  intro p rest a after ends ok
  obtain ⟨stops, holds⟩ := yields p rest a after ends ok
  exact ⟨stops, weakens a holds⟩

theorem YieldsMember.weaken {α : Type} {r : Reader α} {value : List Char} {post weaker : α → Prop}
    (yields : YieldsMember r value post) (weakens : ∀ a, post a → weaker a) :
    YieldsMember r value weaker :=
  fun before after hb ha => Yields.weaken (yields before after hb ha) weakens

def Never {α : Type} (r : Reader α) : Prop := ∀ before a after, r before ≠ .ok (a, after)

theorem never_fail {α : Type} (kind : Kind) : Never (fail kind : Reader α) := by
  intro before a after read
  cases read

theorem never_bind {α β : Type} {first : Reader α} {next : α → Reader β}
    (never : ∀ a, Never (next a)) : Never (first >>= next) := by
  intro before b after read
  obtain ⟨a, between, _, later⟩ := of_bind read
  exact never a between b after later

theorem never_wrongKind {α : Type} (expected : String) : Never (wrongKind expected : Reader α) := by
  have never (m : Mismatch) : Never (mismatch m : Reader α) := never_fail _
  refine never_bind fun s => ?_
  split
  · exact never_bind fun _ => never_bind fun _ => never _
  · exact never_bind fun _ => never_bind fun _ => never _
  · exact never_bind fun _ => never_bind fun _ => never _
  · exact never_bind fun _ => never_bind fun _ => never _
  · exact never _
  · exact never _
  · split
    · refine never_bind fun n => ?_
      cases n <;> exact never _
    · exact never_fail _
  · exact never_fail _

theorem never_objectMismatch {α : Type} (m : Mismatch) : Never (objectMismatch m : Reader α) := by
  refine never_bind fun s => ?_
  split
  · exact never_bind fun _ => never_fail _
  · exact never_fail _

/-- Between the pieces of a string: the last of them may be the first half of a pair. -/
inductive Between : Mode → Prop
  | plain : Between .plain
  | half (high : Nat) : Between (.pairSlash high)

theorem body_piece {cs : List Char} (piece : IsPiece cs) {mode : Mode} (outside : Between mode)
    (content rest : List Symbol) :
    (∃ fault, body false mode content (chars cs rest) = .error fault) ∨
      ∃ next more, Between next ∧
        body false mode content (chars cs rest) = body false next more rest := by
  cases piece with
  | @plain c shown noQuote noSlash =>
    have visible : ¬ c.toNat < 32 := by omega
    cases outside with
    | plain => exact .inr ⟨_, _, .plain, by simp [body, noQuote, noSlash, visible]; rfl⟩
    | half high => exact .inl ⟨_, by simp [body, noSlash]; rfl⟩
  | @letter name c known =>
    simp only [letterEscapes, List.mem_cons, Prod.mk.injEq, List.not_mem_nil, or_false] at known
    cases outside with
    | plain =>
      refine .inr ⟨_, .char c :: content, .plain, ?_⟩
      rcases known with ⟨rfl, rfl⟩ | ⟨rfl, rfl⟩ | ⟨rfl, rfl⟩ | ⟨rfl, rfl⟩ | ⟨rfl, rfl⟩ |
        ⟨rfl, rfl⟩ | ⟨rfl, rfl⟩ | ⟨rfl, rfl⟩ <;> rfl
    | half high =>
      refine .inl ⟨⟨.malformed .brokenPair, rest.length + 1, 1⟩, ?_⟩
      rcases known with ⟨rfl, rfl⟩ | ⟨rfl, rfl⟩ | ⟨rfl, rfl⟩ | ⟨rfl, rfl⟩ | ⟨rfl, rfl⟩ |
        ⟨rfl, rfl⟩ | ⟨rfl, rfl⟩ | ⟨rfl, rfl⟩ <;> rfl
  | @unit n digits spelled =>
    have start : ∃ high, body false mode content (chars ('\\' :: 'u' :: digits) rest) =
        body false (.hex high []) content (chars digits rest) := by
      cases outside with
      | plain => exact ⟨none, by simp [body]⟩
      | half high => exact ⟨some high, by simp [body]⟩
    obtain ⟨high, start⟩ := start
    rw [start, body_hex spelled]
    simp only [Bool.false_eq_true, ↓reduceIte]
    -- After the four digits a character is complete, or the first half of one.
    have known : ∀ mode found, afterHex high n = .ok (mode, found) → Between mode := by
      intro mode found after
      cases high with
      | none =>
        simp only [afterHex] at after
        split_ifs at after <;> cases after
        · exact .half n
        · exact .plain
      | some h =>
        simp only [afterHex] at after
        split_ifs at after
        cases after
        exact .plain
    cases after : afterHex high n with
    | error slip => exact .inl ⟨_, rfl⟩
    | ok found =>
      obtain ⟨mode, found⟩ := found
      cases found with
      | none => exact .inr ⟨_, _, known _ _ after, rfl⟩
      | some c => exact .inr ⟨_, _, known _ _ after, rfl⟩

/-- By induction on the pieces of the string, each of which is read whole or not at all. -/
theorem body_stops {cs : List Char} (formed : IsContent cs) {mode : Mode} (outside : Between mode)
    {content rest read left : List Symbol}
    (ok : body false mode content (chars cs (.char '"' :: rest)) = .ok (read, left)) :
    left = rest := by
  induction formed generalizing mode content with
  | nil =>
    cases outside with
    | plain =>
      simp only [chars_nil, body, ↓reduceIte, Except.ok.injEq, Prod.mk.injEq] at ok
      exact ok.2.symm
    | half high => simp [body] at ok
  | @cons cs more piece _ ih =>
    rw [chars_append] at ok
    rcases body_piece piece outside content (chars more (.char '"' :: rest)) with
      ⟨fault, failed⟩ | ⟨next, read, between, step⟩
    · rw [failed] at ok
      cases ok
    · rw [step] at ok
      exact ih between ok

theorem string_stops {cs : List Char} (formed : IsContent cs) {rest : List Symbol} {p : Bool}
    {s : String} {after : Cursor}
    (ok : string ⟨chars cs (.char '"' :: rest), p⟩ = .ok (s, after)) : after.rest = rest := by
  unfold string at ok
  split at ok
  · cases ok
  · next content left read =>
    have stop := body_stops formed .plain read
    split at ok
    · cases ok
      exact stop
    · cases ok

theorem text_string (expected : String) {gap cs : List Char} (blank : IsGap gap)
    (formed : IsString cs) {rest : List Symbol} {p : Bool} {s : String} {after : Cursor}
    (ok : text expected ⟨chars gap (chars cs rest), p⟩ = .ok (s, after)) : after.rest = rest := by
  cases formed with | quoted content =>
  rw [List.cons_append, chars_cons, chars_append, text_quote expected blank] at ok
  exact string_stops content ok

theorem text_stops (expected : String) {value : List Char} (formed : IsValue value) :
    YieldsValue (text expected) value fun _ => True := by
  intro gap blank p rest s after ends ok
  obtain ⟨c, more, rfl, starts⟩ := formed.starts
  rw [chars_append] at ok
  by_cases quote : c = '"'
  · obtain ⟨content, inside, rfl⟩ := formed.head.text quote
    subst quote
    exact ⟨text_string expected blank (.quoted inside) ok, trivial⟩
  · rw [chars_cons, text, bind_ok (valueStart_gap blank (solid_of_startsValue starts).1 _ p)] at ok
    simp [quote] at ok
    exact absurd ok (never_wrongKind expected _ _ _)

theorem bool_stops {value : List Char} (formed : IsValue value) :
    YieldsValue bool value fun _ => True := by
  intro gap blank p rest b after ends ok
  obtain ⟨c, more, rfl, starts⟩ := formed.starts
  by_cases yes : c = 't'
  · cases formed.head.yes yes
    subst yes
    exact (bool_accepts true).stops .yes gap blank p rest b after ends ok
  · by_cases no : c = 'f'
    · cases formed.head.no no
      subst no
      exact (bool_accepts false).stops .no gap blank p rest b after ends ok
    · rw [chars_append, chars_cons, bool,
        bind_ok (valueStart_gap blank (solid_of_startsValue starts).1 _ p)] at ok
      simp [yes, no] at ok
      exact absurd ok (never_wrongKind _ _ _ _)

theorem optional_stops {α : Type} {r : Reader α} {value : List Char} (formed : IsValue value)
    (stops : YieldsValue r value fun _ => True) :
    YieldsValue (optional r) value fun _ => True := by
  intro gap blank p rest a after ends ok
  obtain ⟨c, more, rfl, starts⟩ := formed.starts
  by_cases null : c = 'n'
  · cases formed.head.null null
    subst null
    exact (optional_null r).stops .null gap blank p rest a after ends ok
  · rw [chars_append, chars_cons, optional,
      bind_ok (blanks_gap blank (solid_of_startsValue starts).1 _ p)] at ok
    simp [null] at ok
    obtain ⟨b, read, rfl⟩ := of_map ok
    exact ⟨(stops [] isGap_nil true rest b after ends read).1, trivial⟩

theorem null_stops (expected : String) {value : List Char} (formed : IsValue value) :
    YieldsValue (null expected) value fun _ => True := by
  intro gap blank p rest a after ends ok
  obtain ⟨c, more, rfl, starts⟩ := formed.starts
  by_cases letter : c = 'n'
  · cases formed.head.null letter
    subst letter
    exact (null_accepts expected).stops .null gap blank p rest a after ends ok
  · rw [chars_append, chars_cons, null,
      bind_ok (valueStart_gap blank (solid_of_startsValue starts).1 _ p)] at ok
    simp [letter] at ok
    exact absurd ok (never_wrongKind _ _ _ _)

end Reader

end ObsCatalog.Json
