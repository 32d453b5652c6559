import ObsCatalog.Proofs.Json.Stopping

/-! Records that are read.

The values in them may be of any kind. Where a record is read, each of its members has
been read, so what one of them refuses is refused by the record.
-/

set_option autoImplicit false

namespace ObsCatalog.Json

open Text

namespace Reader

theorem once_yields {α : Type} {r : Reader α} {value : List Char} {post : α → Prop}
    (yields : YieldsValue r value post) (name : String) (given : Option α) :
    YieldsMember (once name given r) value fun read => given = none ∧ ∃ a, read = some a ∧ post a := by
  intro before after hb ha p rest read last ends ok
  cases given with
  | some _ => exact absurd ok (never_objectMismatch _ _ _ _)
  | none =>
    rw [chars_append, chars_cons] at ok
    obtain ⟨_, between, atColon, ok⟩ := of_bind ok
    rw [colon_gap hb] at atColon
    cases atColon
    obtain ⟨a, inner, rfl⟩ := of_map ok
    obtain ⟨stops, holds⟩ := yields after ha false rest a last ends inner
    exact ⟨stops, rfl, a, rfl, holds⟩

theorem YieldsMember.bind {α β : Type} {r : Reader α} {value : List Char} {post : α → Prop}
    (yields : YieldsMember r value post) {next : α → Reader β} {f : α → β}
    (pure : ∀ a c, next a c = .ok (f a, c)) {after : β → Prop} (holds : ∀ a, post a → after (f a)) :
    YieldsMember (r >>= next) value after := by
  intro left right hl hr p rest b last ends ok
  obtain ⟨a, between, read, ok⟩ := of_bind ok
  obtain ⟨stops, known⟩ := yields left right hl hr p rest a between ends read
  rw [pure] at ok
  cases ok
  exact ⟨stops, holds a known⟩

/-- Where the name of a member is read, it is the one that its text spells. -/
theorem nextName_yields {first : Bool} {lead title : List Char} (opens : Opens first lead)
    (formed : IsString title) {rest : List Symbol} {p : Bool} {found : Option String}
    {after : Cursor}
    (ok : nextName first ⟨chars lead (chars title rest), p⟩ = .ok (found, after)) :
    ∃ name, found = some name ∧ after.rest = rest ∧ ∀ s, SpellsString s title → s = name := by
  have spelled (s : String) (key : SpellsString s title) : some s = found := by
    rw [nextName_opens opens key rest p] at ok
    cases ok
    rfl
  cases formed with | quoted content =>
  rw [List.cons_append, chars_cons, chars_append, chars_cons, chars_nil,
    nextName_quote opens] at ok
  obtain ⟨name, read, same⟩ := of_map ok
  exact ⟨name, same, string_stops content read, fun s key => Option.some.inj (same ▸ spelled s key)⟩

section

variable {σ : Type} {member : String → σ → Reader σ}
  {inv : List (List Char × List Char) → σ → Prop}

/-- Reading a further member keeps the condition, which is about the members read so far and
the draft. -/
def Keeps (member : String → σ → Reader σ) (inv : List (List Char × List Char) → σ → Prop) :
    Prop :=
  ∀ seen title value name draft, IsString title → IsValue value →
    (∀ s, SpellsString s title → s = name) → inv seen draft →
    YieldsMember (member name draft) value (inv (seen ++ [(title, value)]))

theorem membersFrom_entry (keeps : Keeps member inv) {seen : List (List Char × List Char)}
    {draft last : σ} (holds : inv seen draft) {title value cs : List Char}
    (name : IsString title) (formed : IsValue value) (spelled : SpellsEntry (title, value) cs)
    {first : Bool} {lead : List Char} (opens : Opens first lead) {rest : List Symbol}
    (ends : Ends rest) {steps : Nat} {p : Bool} {after : Cursor}
    (ok : membersFrom member (steps + 1) first draft ⟨chars lead (chars cs rest), p⟩ =
      .ok (last, after)) :
    ∃ next q, inv (seen ++ [(title, value)]) next ∧
      membersFrom member steps false next ⟨rest, q⟩ = .ok (last, after) := by
  -- First the name is read, then the colon and the value: each stops where the next begins.
  cases spelled with | @named title value before between hb ha =>
  rw [List.append_assoc, chars_append, membersFrom] at ok
  obtain ⟨found, atColon, read, ok⟩ := of_bind ok
  obtain ⟨key, rfl, stops, same⟩ := nextName_yields opens name read
  obtain ⟨left, q⟩ := atColon
  cases stops
  obtain ⟨next, atEnd, update, later⟩ := of_bind ok
  obtain ⟨stops, kept⟩ := keeps seen title value key draft name formed same holds before between hb
    ha q rest next atEnd ends update
  obtain ⟨left, q⟩ := atEnd
  cases stops
  exact ⟨next, q, kept, later⟩

/-- By induction on the entries: where all of them are read, the condition holds at the end,
which is the bracket that closes the object. -/
theorem membersFrom_keeps (keeps : Keeps member inv) {entries : List (List Char × List Char)}
    {cs : List Char} (names : ∀ e ∈ entries, IsString e.1) (values : ∀ e ∈ entries, IsValue e.2)
    (laid : Separated SpellsEntry entries cs) (some : entries ≠ [])
    {seen : List (List Char × List Char)} {draft last : σ} (holds : inv seen draft)
    {first : Bool} {lead : List Char} (opens : Opens first lead) {rest : List Symbol}
    {steps : Nat} {p : Bool} {after : Cursor}
    (ok : membersFrom member steps first draft ⟨chars lead (chars cs (.char '}' :: rest)), p⟩ =
      .ok (last, after)) :
    inv (seen ++ entries) last ∧ after.rest = .char '}' :: rest := by
  -- The induction is on the entries; the invariant holds of those that have been read so far.
  induction laid generalizing seen draft first lead steps p with
  | none => exact absurd rfl some
  | @one before gap cs entry hb spelled ha =>
    cases steps with
    | zero => cases ok
    | succ steps =>
      rw [List.append_assoc, chars_append before, ← chars_append lead, chars_append cs] at ok
      obtain ⟨next, q, kept, later⟩ := membersFrom_entry keeps holds
        (names entry List.mem_cons_self) (values entry List.mem_cons_self) spelled
        (opens.append hb) (ends_gap ha (ends_mark (.inr (.inl rfl)) rest)) ok
      cases steps with
      | zero => cases later
      | succ steps =>
        rw [membersFrom_end false next ha rest steps q] at later
        cases later
        exact ⟨kept, rfl⟩
  | @more before gap cs others entry next later hb spelled ha tail ih =>
    cases steps with
    | zero => cases ok
    | succ steps =>
      rw [List.append_assoc, List.append_assoc, chars_append before, ← chars_append lead,
        chars_append cs, chars_append gap, chars_cons] at ok
      obtain ⟨between, q, kept, rest⟩ := membersFrom_entry keeps holds
        (names entry List.mem_cons_self) (values entry List.mem_cons_self) spelled
        (opens.append hb) (ends_gap ha (ends_mark (.inl rfl) _)) ok
      rw [← chars_cons, ← chars_append, List.append_cons] at rest
      have tailRead := ih (fun e member => names e (List.mem_cons_of_mem _ member))
        (fun e member => values e (List.mem_cons_of_mem _ member)) (by simp) kept
        (.next ha isGap_nil) (by simpa using rest)
      simpa using tailRead

/-- Where an object is read, all its members are, and reading stops before the bracket that
closes it. -/
theorem members_keeps (keeps : Keeps member inv) {entries : List (List Char × List Char)}
    {cs : List Char} (formed : IsBody entries cs) {draft last : σ} (holds : inv [] draft)
    {rest : List Symbol} {p : Bool} {after : Cursor}
    (ok : members member draft ⟨chars cs (.char '}' :: rest), p⟩ = .ok (last, after)) :
    inv entries last ∧ after.rest = .char '}' :: rest := by
  obtain ⟨names, values, laid⟩ := formed
  rw [members] at ok
  by_cases none : entries = []
  · subst none
    cases laid with | none blank =>
    rw [membersFrom_end true draft blank] at ok
    cases ok
    exact ⟨holds, rfl⟩
  · exact membersFrom_keeps keeps names values laid none holds (.start isGap_nil) ok

end

/-- What is left of an array after some of its elements, up to what follows the array. -/
inductive Remains (rest : List Symbol) : Bool → List Symbol → Prop
  | start {items : List (List Char)} {cs : List Char} (values : ∀ item ∈ items, IsValue item)
      (laid : Separated Eq items cs) : Remains rest true (chars cs (.char ']' :: rest))
  | next {items : List (List Char)} {gap cs : List Char} (blank : IsGap gap)
      (values : ∀ item ∈ items, IsValue item) (some : items ≠ []) (laid : Separated Eq items cs) :
      Remains rest false (chars gap (.char ',' :: chars cs (.char ']' :: rest)))
  | done {gap : List Char} (blank : IsGap gap) : Remains rest false (chars gap (.char ']' :: rest))

theorem separated_first {items : List (List Char)} {cs : List Char}
    (values : ∀ item ∈ items, IsValue item) (some : items ≠ []) (laid : Separated Eq items cs)
    (rest : List Symbol) : ∃ before value left, IsGap before ∧ IsValue value ∧ Ends left ∧
      chars cs (.char ']' :: rest) = chars before (chars value left) ∧ Remains rest false left := by
  cases laid with
  | none => exact absurd rfl some
  | @one before gap value item hb same ha =>
    subst same
    refine ⟨before, item, _, hb, values item List.mem_cons_self,
      ends_gap ha (ends_mark (.inr (.inr rfl)) rest), ?_, .done ha⟩
    simp
  | @more before gap value others item next later hb same ha tail =>
    subst same
    refine ⟨before, item, _, hb, values item List.mem_cons_self,
      ends_gap ha (ends_mark (.inl rfl) (chars others (.char ']' :: rest))), ?_,
      .next ha (fun item member => values item (List.mem_cons_of_mem _ member)) (by simp) tail⟩
    simp

theorem hasElement_remains {first : Bool} {rest : List Symbol} {before after : Cursor}
    (remains : Remains rest first before.rest) {found : Bool}
    (ok : hasElement first before = .ok (found, after)) :
    (found = false ∧ Remains rest false after.rest) ∨
      (found = true ∧ ∃ value left, IsValue value ∧ Ends left ∧ after.rest = chars value left ∧
        Remains rest false left) := by
  obtain ⟨source, p⟩ := before
  simp only at remains
  cases remains with
  | @start items cs values laid =>
    by_cases none : items = []
    · subst none
      cases laid with | none blank =>
      rw [hasElement, bind_ok (blanks_gap blank (by decide) rest p)] at ok
      cases ok
      exact .inl ⟨rfl, .done isGap_nil⟩
    · obtain ⟨gap, value, left, hb, formed, ends, shape, others⟩ :=
        separated_first values none laid rest
      obtain ⟨c, more, rfl, starts⟩ := formed.starts
      obtain ⟨solid, notEnd, _, notComma⟩ := solid_of_startsValue starts
      rw [shape, chars_cons, hasElement, bind_ok (blanks_gap hb solid _ p)] at ok
      simp [notEnd, notComma] at ok
      cases ok
      exact .inr ⟨rfl, _, left, formed, ends, rfl, others⟩
  | @next items gap cs blank values some laid =>
    obtain ⟨before, value, left, hb, formed, ends, shape, others⟩ :=
      separated_first values some laid rest
    obtain ⟨c, more, rfl, starts⟩ := formed.starts
    obtain ⟨solid, notEnd, _, _⟩ := solid_of_startsValue starts
    rw [hasElement, bind_ok (blanks_gap blank (by decide) _ p)] at ok
    obtain ⟨_, atComma, moved, ok⟩ := of_bind ok
    cases moved
    rw [List.tail_cons, shape, chars_cons, bind_ok (blanks_gap hb solid _ false)] at ok
    simp [notEnd] at ok
    cases ok
    exact .inr ⟨rfl, _, left, formed, ends, rfl, others⟩
  | done blank =>
    rw [hasElement, bind_ok (blanks_gap blank (by decide) rest p)] at ok
    cases ok
    exact .inl ⟨rfl, .done isGap_nil⟩

theorem element_remains {α : Type} {r : Reader α} (index : Nat)
    (stops : ∀ value, IsValue value → YieldsValue r value fun _ => True) {rest : List Symbol}
    {before after : Cursor} (remains : Remains rest (index == 0) before.rest) {a : Option α}
    (ok : element index r before = .ok (a, after)) : Remains rest false after.rest := by
  obtain ⟨found, between, has, ok⟩ := of_bind ok
  rcases hasElement_remains remains has with
    ⟨rfl, others⟩ | ⟨rfl, value, left, formed, ends, shape, others⟩
  · cases ok
    exact others
  · obtain ⟨b, read, _⟩ := of_map ok
    obtain ⟨source, p⟩ := between
    cases shape
    have stop := (stops value formed [] isGap_nil p left b after ends read).1
    rw [stop]
    exact others

theorem closeList_remains {rest : List Symbol} {before after : Cursor}
    (remains : Remains rest false before.rest) (ok : closeList before = .ok ((), after)) :
    after.rest = rest := by
  obtain ⟨left, p⟩ := before
  simp only at remains
  generalize first : false = f at remains
  cases remains with
  | start => cases first
  | next blank values some laid =>
    -- Another element after those of the record is a fault, whatever it is.
    rw [closeList, bind_ok (blanks_gap blank (by decide) _ p)] at ok
    obtain ⟨_, between, _, ok⟩ := of_bind ok
    obtain ⟨s, last, _, ok⟩ := of_bind ok
    revert ok
    split
    all_goals
      intro ok
      cases ok
  | done blank =>
    rw [closeList, bind_ok (blanks_gap blank (by decide) _ p)] at ok
    cases ok
    rfl

/-- What is to be shown about a record, given as an object or as an array. -/
theorem record_yields {α : Type} {expected : String} {ofObject ofList : Reader α}
    {post : α → Prop} {value : List Char} (formed : IsValue value)
    (object : ∀ entries cs, IsBody entries cs → value = '{' :: cs ++ ['}'] → ∀ rest p a after,
      ofObject ⟨chars cs (.char '}' :: rest), p⟩ = .ok (a, after) →
        after.rest = .char '}' :: rest ∧ post a)
    (list : value.head? = some '[' → ∀ rest before, Remains rest true before.rest → ∀ a after,
      ofList before = .ok (a, after) → Remains rest false after.rest ∧ post a) :
    YieldsValue (record expected ofObject ofList) value post := by
  intro gap blank p rest a after ends ok
  obtain ⟨c, more, rfl, starts⟩ := formed.starts
  rw [chars_append, chars_cons, record,
    bind_ok (valueStart_gap blank (solid_of_startsValue starts).1 _ p)] at ok
  -- The first character tells whether an object or a list is read, or none.
  by_cases brace : c = '{'
  · obtain ⟨entries, cs, inside, rfl⟩ := formed.head.object brace
    subst brace
    rw [chars_append] at ok
    obtain ⟨_, inner, moved, ok⟩ := of_bind ok
    cases moved
    obtain ⟨b, atEnd, read, ok⟩ := of_bind ok
    obtain ⟨stops, holds⟩ := object entries cs inside rfl rest false b atEnd read
    obtain ⟨left, q⟩ := atEnd
    cases stops
    obtain ⟨_, last, closed, ok⟩ := of_bind ok
    cases closed
    cases ok
    exact ⟨rfl, holds⟩
  · by_cases bracket : c = '['
    · obtain ⟨items, cs, values, laid, rfl⟩ := formed.head.array bracket
      subst bracket
      rw [chars_append] at ok
      obtain ⟨_, inner, moved, ok⟩ := of_bind ok
      cases moved
      obtain ⟨b, atEnd, read, ok⟩ := of_bind ok
      obtain ⟨others, holds⟩ := list rfl rest _ (.start values laid) b atEnd read
      obtain ⟨_, last, closed, ok⟩ := of_bind ok
      cases ok
      exact ⟨closeList_remains others closed, holds⟩
    · simp [brace, bracket] at ok
      exact absurd ok (never_wrongKind _ _ _ _)

/-- Nothing of the value is lost in a document. -/
theorem of_document {α : Type} {r : Reader α} {input : List Symbol} {a : α}
    (ok : document r input = .ok a) : ∃ after, r ⟨input, false⟩ = .ok (a, after) := by
  have first {result : Except Fault (α × Cursor)} (ok : result.map (·.1) = .ok a) :
      ∃ after, result = .ok (a, after) := by
    cases result with
    | error fault => cases ok
    | ok found =>
      cases ok
      exact ⟨found.2, rfl⟩
  obtain ⟨last, ok⟩ := first ok
  obtain ⟨b, between, read, ok⟩ := of_bind ok
  obtain ⟨s, _, _, ok⟩ := of_bind ok
  cases s with
  | none =>
    cases ok
    exact ⟨between, read⟩
  | some s => cases ok

theorem document_yields {α : Type} {r : Reader α} {value : List Char} {post : α → Prop}
    (yields : YieldsValue r value post) {before after : List Char} (hb : IsGap before)
    (ha : IsGap after) {s : String} (whole : s.toList = before ++ value ++ after) {a : α}
    (ok : document r (symbols s) = .ok a) : post a := by
  obtain ⟨last, read⟩ := of_document ok
  rw [symbols_spelled whole] at read
  exact (yields before hb false (chars after []) a last (ends_gap ha ends_nil) read).2

end Reader

end ObsCatalog.Json
