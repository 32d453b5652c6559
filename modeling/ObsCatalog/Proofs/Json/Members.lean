import ObsCatalog.Json.Typed
import ObsCatalog.Proofs.Json.Skipping

/-! Objects and documents read from their spellings.

The members of an object are read one after the other, each updating a draft. What is
to be shown about a reader of members is only how it updates the draft at each of
them.
-/

set_option autoImplicit false

namespace ObsCatalog.Json

open Text

theorem SpellsMembers.separated {members : List (String × Json)} {cs : List Char}
    (spelled : SpellsMembers members cs) : ∃ entries, Separated SpellsEntry entries cs ∧
      List.Forall₂ (fun m e => SpellsString m.1 e.1 ∧ Spells m.2 e.2) members entries := by
  cases spelled with
  | none blank => exact ⟨[], .none blank, .nil⟩
  | one hb member ha =>
    cases member with | named key before after value =>
    exact ⟨[_], .one hb (.named before after) ha, .cons ⟨key, value⟩ .nil⟩
  | more hb member ha tail =>
    cases member with | named key before after value =>
    obtain ⟨entries, laid, same⟩ := tail.separated
    cases same with | cons first others =>
    exact ⟨_ :: _ :: _, .more hb (.named before after) ha laid, .cons ⟨key, value⟩ (.cons first others)⟩

theorem Separated.length_le {entries : List (List Char × List Char)} {cs : List Char}
    (laid : Separated SpellsEntry entries cs) : entries.length ≤ cs.length := by
  have long {entry : List Char × List Char} {cs : List Char} (spelled : SpellsEntry entry cs) :
      1 ≤ cs.length := by
    cases spelled
    simp only [List.length_append, List.length_cons]
    omega
  induction laid with
  | none => simp
  | one _ spelled _ =>
    have := long spelled
    simp only [List.length_append, List.length_cons, List.length_nil]
    omega
  | more _ spelled _ _ ih =>
    have := long spelled
    simp only [List.length_append, List.length_cons] at *
    omega

namespace Reader

/-- The reader takes the text of a value after any gap. -/
def TakesValue {α : Type} (r : Reader α) (value : List Char) (a : α) : Prop :=
  ∀ gap, IsGap gap → Takes r (gap ++ value) a

/-- The reader takes a colon and the text of a value after the name of a member. -/
def TakesMember {α : Type} (r : Reader α) (value : List Char) (a : α) : Prop :=
  ∀ before after, IsGap before → IsGap after → Takes r (before ++ ':' :: (after ++ value)) a

theorem TakesMember.bind {α β : Type} {r : Reader α} {value : List Char} {a : α}
    (takes : TakesMember r value a) {next : α → Reader β} {b : β}
    (yields : ∀ c, next a c = .ok (b, c)) : TakesMember (r >>= next) value b :=
  fun before after hb ha => (takes before after hb ha).bind yields

theorem once_takes {α : Type} {r : Reader α} {value : List Char} {a : α}
    (takes : TakesValue r value a) (name : String) :
    TakesMember (once name none r) value (some a) := by
  intro before after hb ha p rest ends
  obtain ⟨q, read⟩ := takes after ha false rest ends
  refine ⟨q, ?_⟩
  rw [chars_append, chars_cons]
  show (colon >>= fun _ => some <$> r) _ = _
  rw [bind_ok (colon_gap hb _ p)]
  exact map_ok read some

theorem skipMember_takes {value : List Char} (formed : IsValue value) :
    TakesMember skipMember value () := by
  intro before after hb ha p rest ends
  obtain ⟨q, read⟩ := skipValue_takes ha formed false rest ends
  exact ⟨q, by rw [chars_append, chars_cons, skipMember, bind_ok (colon_gap hb _ p), read]⟩

/-- The reader takes a colon and every spelling of a value after the name of a member. -/
def AcceptsMember {α : Type} (r : Reader α) (j : Json) (a : α) : Prop :=
  ∀ before after cs, IsGap before → IsGap after → Spells j cs →
    Takes r (before ++ ':' :: (after ++ cs)) a

theorem AcceptsMember.takes {α : Type} {r : Reader α} {j : Json} {a : α}
    (accepts : AcceptsMember r j a) {value : List Char} (spelled : Spells j value) :
    TakesMember r value a :=
  fun before after hb ha => accepts before after value hb ha spelled

theorem AcceptsMember.bind {α β : Type} {r : Reader α} {j : Json} {a : α}
    (accepts : AcceptsMember r j a) {next : α → Reader β} {b : β}
    (yields : ∀ c, next a c = .ok (b, c)) : AcceptsMember (r >>= next) j b :=
  fun before after cs hb ha spelled => (accepts before after cs hb ha spelled).bind yields

theorem once_accepts {α : Type} {r : Reader α} {j : Json} {a : α} (accepts : Accepts r j a)
    (name : String) : AcceptsMember (once name none r) j (some a) :=
  fun before after cs hb ha spelled =>
    once_takes (fun gap blank => accepts gap cs blank spelled) name before after hb ha

inductive FillsText {σ : Type} (member : String → σ → Reader σ) :
    σ → List (List Char × List Char) → σ → Prop
  | none (draft : σ) : FillsText member draft [] draft
  | more {draft between last : σ} {name : String} {title value : List Char}
      {rest : List (List Char × List Char)} (key : SpellsString name title)
      (first : TakesMember (member name draft) value between)
      (others : FillsText member between rest last) :
      FillsText member draft ((title, value) :: rest) last

inductive Fills {σ : Type} (member : String → σ → Reader σ) :
    σ → List (String × Json) → σ → Prop
  | none (draft : σ) : Fills member draft [] draft
  | more {draft between last : σ} {name : String} {value : Json} {rest : List (String × Json)}
      (first : AcceptsMember (member name draft) value between)
      (others : Fills member between rest last) :
      Fills member draft ((name, value) :: rest) last

theorem Fills.text {σ : Type} {member : String → σ → Reader σ} {draft last : σ}
    {members : List (String × Json)} {entries : List (List Char × List Char)}
    (fills : Fills member draft members last) (same : List.Forall₂
      (fun m e => SpellsString m.1 e.1 ∧ Spells m.2 e.2) members entries) :
    FillsText member draft entries last := by
  induction fills generalizing entries with
  | none draft =>
    cases same
    exact .none draft
  | more first _ ih =>
    cases same with | cons spelled others =>
    exact .more spelled.1 (first.takes spelled.2) (ih others)

theorem nextName_end (first : Bool) {gap : List Char} (blank : IsGap gap) (rest : List Symbol)
    (p : Bool) : nextName first ⟨chars gap (.char '}' :: rest), p⟩ =
      .ok (none, ⟨.char '}' :: rest, true⟩) := by
  rw [nextName, bind_ok (blanks_gap blank (by decide) rest p)]
  rfl

/-- What stands before the name of a member: a gap, and a comma unless the member is the
first. -/
inductive Opens : Bool → List Char → Prop
  | start {gap : List Char} (blank : IsGap gap) : Opens true gap
  | next {before after : List Char} (hb : IsGap before) (ha : IsGap after) :
      Opens false (before ++ ',' :: after)

theorem Opens.append {first : Bool} {lead gap : List Char} (opens : Opens first lead)
    (blank : IsGap gap) : Opens first (lead ++ gap) := by
  cases opens with
  | start before => exact .start (before.append blank)
  | next hb ha =>
    rw [List.append_assoc, List.cons_append]
    exact .next hb (ha.append blank)

theorem nextName_quote {first : Bool} {lead : List Char} (opens : Opens first lead)
    (rest : List Symbol) (p : Bool) : nextName first ⟨chars lead (.char '"' :: rest), p⟩ =
      (some <$> string : Reader (Option String)) ⟨rest, false⟩ := by
  cases opens with
  | start blank =>
    rw [nextName, bind_ok (blanks_gap blank (by decide) _ p)]
    show (advance >>= fun _ => some <$> string) _ = _
    rw [bind_ok (advance_cons _ _ _)]
  | next hb ha =>
    rw [chars_append, chars_cons, nextName, bind_ok (blanks_gap hb (by decide) _ p)]
    show (advance >>= fun _ => blanks >>= _) _ = _
    rw [bind_ok (advance_cons _ _ _), bind_ok (blanks_gap ha (by decide) _ false)]
    show (advance >>= fun _ => some <$> string) _ = _
    rw [bind_ok (advance_cons _ _ _)]

theorem nextName_opens {first : Bool} {lead title : List Char} (opens : Opens first lead)
    {name : String} (key : SpellsString name title) (rest : List Symbol) (p : Bool) :
    nextName first ⟨chars lead (chars title rest), p⟩ = .ok (some name, ⟨rest, false⟩) := by
  cases key with | quoted content =>
  rw [List.cons_append, chars_cons, chars_append, chars_cons, chars_nil, nextName_quote opens]
  exact map_ok (string_chars content rest false) some

section

variable {σ : Type} {member : String → σ → Reader σ}

theorem membersFrom_member {draft between : σ} {name : String} {title value : List Char}
    (key : SpellsString name title) (takes : TakesMember (member name draft) value between)
    {cs : List Char} (spelled : SpellsEntry (title, value) cs) {first : Bool} {lead : List Char}
    (opens : Opens first lead) {rest : List Symbol} (ends : Ends rest) (steps : Nat) (p : Bool) :
    ∃ q, membersFrom member (steps + 1) first draft ⟨chars lead (chars cs rest), p⟩ =
      membersFrom member steps false between ⟨rest, q⟩ := by
  cases spelled with | @named title value before after hb ha =>
  obtain ⟨q, read⟩ := takes before after hb ha false rest ends
  refine ⟨q, ?_⟩
  rw [List.append_assoc, chars_append, membersFrom, bind_ok (nextName_opens opens key _ p)]
  show (member name draft >>= fun draft => membersFrom member steps false draft) _ = _
  rw [bind_ok read]

theorem membersFrom_end (first : Bool) (draft : σ) {gap : List Char} (blank : IsGap gap)
    (rest : List Symbol) (steps : Nat) (p : Bool) :
    membersFrom member (steps + 1) first draft ⟨chars gap (.char '}' :: rest), p⟩ =
      .ok (draft, ⟨.char '}' :: rest, true⟩) := by
  rw [membersFrom, bind_ok (nextName_end first blank rest p)]
  rfl

/-- By induction on the entries; the first of them is read as the later ones are, without
the comma. -/
theorem membersFrom_fills {draft last : σ} {entries : List (List Char × List Char)}
    (fills : FillsText member draft entries last) (some : entries ≠ []) {cs : List Char}
    (laid : Separated SpellsEntry entries cs) {first : Bool} {lead : List Char}
    (opens : Opens first lead) {steps : Nat} (enough : entries.length < steps)
    (rest : List Symbol) (p : Bool) :
    membersFrom member steps first draft ⟨chars lead (chars cs (.char '}' :: rest)), p⟩ =
      .ok (last, ⟨.char '}' :: rest, true⟩) := by
  induction fills generalizing first lead cs steps p with
  | none => exact absurd rfl some
  | @more draft between last name title value rest' key takes others ih =>
    cases laid with
    | @one before after cs _ hb spelled ha =>
      obtain ⟨k, rfl⟩ : ∃ k, steps = k + 1 + 1 := ⟨steps - 2, by simp at enough; omega⟩
      cases others
      obtain ⟨q, read⟩ := membersFrom_member key takes spelled (opens.append hb)
        (ends_gap ha (ends_mark (.inr (.inl rfl)) rest)) (k + 1) p
      simp only [chars_append, List.append_assoc] at read ⊢
      rw [read]
      exact membersFrom_end false between ha rest k q
    | @more before after cs tail _ next later hb spelled ha laidTail =>
      obtain ⟨k, rfl⟩ : ∃ k, steps = k + 1 := ⟨steps - 1, by omega⟩
      obtain ⟨q, read⟩ := membersFrom_member key takes spelled (opens.append hb)
        (ends_gap ha (ends_mark (.inl rfl) (chars tail (.char '}' :: rest)))) k p
      have smaller : (next :: later).length < k := by simp at enough ⊢; omega
      have tailRead := ih (by simp) laidTail (.next ha isGap_nil) smaller q
      simp only [chars_append, chars_cons, chars_nil, List.append_assoc] at read tailRead ⊢
      rw [read]
      exact tailRead

/-- All members are read, whatever gaps there are, up to the bracket that closes the object. -/
theorem members_fillsText {draft last : σ} {entries : List (List Char × List Char)}
    (fills : FillsText member draft entries last) {cs : List Char}
    (laid : Separated SpellsEntry entries cs) (rest : List Symbol) (p : Bool) :
    members member draft ⟨chars cs (.char '}' :: rest), p⟩ =
      .ok (last, ⟨.char '}' :: rest, true⟩) := by
  have enough : entries.length < (chars cs (.char '}' :: rest)).length + 1 := by
    have := laid.length_le
    simp only [chars, List.length_append, List.length_map, List.length_cons]
    omega
  rw [members]
  cases fills with
  | none =>
    cases laid with
    | none blank => exact membersFrom_end true draft blank rest _ p
  | more key takes others =>
    exact membersFrom_fills (.more key takes others) (by simp) laid (.start isGap_nil) enough
      rest p

theorem members_fills {draft last : σ} {ms : List (String × Json)}
    (fills : Fills member draft ms last) {cs : List Char} (spelled : SpellsMembers ms cs)
    (rest : List Symbol) (p : Bool) :
    members member draft ⟨chars cs (.char '}' :: rest), p⟩ =
      .ok (last, ⟨.char '}' :: rest, true⟩) := by
  obtain ⟨entries, laid, same⟩ := spelled.separated
  exact members_fillsText (fills.text same) laid rest p

end

/-- A record that is given as an object. What is left to show is what its reader makes of
the draft. -/
theorem record_takes {α : Type} {expected : String} {ofObject ofList : Reader α} {cs : List Char}
    {a : α} (reads : ∀ rest p,
      ofObject ⟨chars cs (.char '}' :: rest), p⟩ = .ok (a, ⟨.char '}' :: rest, true⟩)) :
    TakesValue (record expected ofObject ofList) ('{' :: cs ++ ['}']) a := by
  intro gap blank p rest _
  have closes : closeObject ⟨.char '}' :: rest, true⟩ = .ok ((), ⟨rest, false⟩) := by
    rfl
  refine ⟨false, ?_⟩
  rw [chars_append, List.cons_append, chars_cons, chars_append, record,
    bind_ok (valueStart_gap blank (by decide) _ p)]
  show (advance >>= fun _ => ofObject >>= fun a => closeObject >>= fun _ => pure a) _ = _
  rw [bind_ok (advance_cons _ _ _), chars_cons, chars_nil, bind_ok (reads rest false),
    bind_ok closes]
  rfl

theorem record_accepts {α : Type} {expected : String} {ofObject ofList : Reader α}
    {ms : List (String × Json)} {a : α}
    (reads : ∀ cs, SpellsMembers ms cs → ∀ rest p,
      ofObject ⟨chars cs (.char '}' :: rest), p⟩ = .ok (a, ⟨.char '}' :: rest, true⟩)) :
    Accepts (record expected ofObject ofList) (.object ms) a := by
  intro gap cs blank spelled
  cases spelled with | @object _ cs spelled =>
  exact record_takes (reads cs spelled) gap blank

theorem symbols_spelled {s : String} {cs after : List Char} (whole : s.toList = cs ++ after) :
    symbols s = chars cs (chars after []) := by
  rw [symbols, whole, ← chars_append]
  simp [chars]

theorem document_takes {α : Type} {r : Reader α} {value : List Char} {a : α}
    (takes : TakesValue r value a) {before after : List Char} (hb : IsGap before)
    (ha : IsGap after) {s : String} (whole : s.toList = before ++ value ++ after) :
    document r (symbols s) = .ok a := by
  obtain ⟨q, read⟩ := takes before hb false (chars after []) (ends_gap ha ends_nil)
  rw [document, symbols_spelled whole, bind_ok read, bind_ok (blanks_gap_nil ha q)]
  rfl

theorem document_accepts {α : Type} {r : Reader α} {j : Json} {a : α} (accepts : Accepts r j a)
    {s : String} (holds : IsDocument j s) : document r (symbols s) = .ok a := by
  obtain ⟨before, cs, after, hb, spelled, ha, whole⟩ := holds
  exact document_takes (fun gap blank => accepts gap cs blank spelled) hb ha whole

end Reader

end ObsCatalog.Json
