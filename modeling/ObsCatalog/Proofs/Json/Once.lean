import ObsCatalog.Proofs.Json.Record

/-! Members that are given once.

A draft remembers the names that have been read. It takes in members with new names, each
of which adds the fields that it gives, and it takes in no name twice.
-/

set_option autoImplicit false

namespace ObsCatalog.Json

open Text

namespace Reader

/-- Each of the names is that of one entry at most. -/
def Once (names : List String) (entries : List (List Char × List Char)) : Prop :=
  entries.Pairwise fun e f => ∀ name ∈ names, SpellsString name e.1 → ¬ SpellsString name f.1

theorem once_of_nodup {keys : List String} {entries : List (List Char × List Char)}
    (spelled : List.Forall₂ (fun key e => SpellsString key e.1) keys entries)
    (distinct : keys.Nodup) (names : List String) : Once names entries := by
  have known {keys : List String} {entries : List (List Char × List Char)} (spelled :
      List.Forall₂ (fun key e => SpellsString key e.1) keys entries) :
      ∀ e ∈ entries, ∃ key ∈ keys, SpellsString key e.1 := by
    induction spelled with
    | nil => exact fun _ member => absurd member List.not_mem_nil
    | cons first _ ih =>
      rintro e (_ | ⟨_, member⟩)
      · exact ⟨_, List.mem_cons_self, first⟩
      · obtain ⟨key, listed, spelled⟩ := ih e member
        exact ⟨key, List.mem_cons_of_mem _ listed, spelled⟩
  induction spelled with
  | nil => exact .nil
  | cons first others ih =>
    obtain ⟨apart, distinctRest⟩ := List.nodup_cons.1 distinct
    refine List.pairwise_cons.2 ⟨fun f member name _ one other => apart ?_, ih distinctRest⟩
    obtain ⟨key, listed, spelled⟩ := known others f member
    rw [spellsString_unique first one, spellsString_unique other spelled]
    exact listed

def Fresh {σ : Type} (has : σ → String → Prop) (draft : σ)
    (entries : List (List Char × List Char)) : Prop :=
  ∀ e ∈ entries, ∀ name, SpellsString name e.1 → ¬ has draft name

section

variable {σ τ F : Type} {gives : List Char × List Char → List F → Prop}
  {entries : List (List Char × List Char)} {groups : List (List F)} {names : List String}

/-- By induction on the members: a draft without any of them comes to have all of their fields,
if it takes in each of them. -/
theorem fillsText_of_gives {member : String → σ → Reader σ} {has : σ → String → Prop}
    {completed : σ → τ} {put : τ → F → τ} (takes : ∀ {e group} {d : σ}, gives e group →
      (∀ name, SpellsString name e.1 → ¬ has d name) → ∃ name next, SpellsString name e.1 ∧
        TakesMember (member name d) e.2 next ∧ completed next = group.foldl put (completed d) ∧
        ∀ n, has next n → has d n ∨ n = name ∧ name ∈ names)
    (given : List.Forall₂ gives entries groups) (once : Once names entries) {d : σ}
    (fresh : Fresh has d entries) : ∃ last, FillsText member d entries last ∧
      completed last = groups.flatten.foldl put (completed d) := by
  induction given generalizing d with
  | nil => exact ⟨d, .none d, rfl⟩
  | @cons e group entries groups first _ ih =>
    obtain ⟨apart, onceRest⟩ := List.pairwise_cons.1 once
    obtain ⟨name, next, key, taken, result, grown⟩ := takes first (fresh e List.mem_cons_self)
    -- The only name that the draft may have gained is one that no later entry has.
    have later : Fresh has next entries := by
      intro f member n spelled given
      rcases grown n given with earlier | ⟨rfl, listed⟩
      · exact fresh f (List.mem_cons_of_mem _ member) n spelled earlier
      · exact apart f member n listed key spelled
    obtain ⟨last, fills, results⟩ := ih onceRest later
    refine ⟨last, .more key taken fills, ?_⟩
    rw [results, result, List.flatten_cons, List.foldl_append]

theorem exists_of_mem_flatten (given : List.Forall₂ gives entries groups) {f : F}
    (member : f ∈ groups.flatten) : ∃ e ∈ entries, ∃ group, gives e group ∧ f ∈ group := by
  induction given with
  | nil => cases member
  | cons first _ ih =>
    rcases List.mem_append.1 member with here | later
    · exact ⟨_, List.mem_cons_self, _, first, here⟩
    · obtain ⟨e, listed, found⟩ := ih later
      exact ⟨e, List.mem_cons_of_mem _ listed, found⟩

/-- The title of a field is the name of the member that gives it; a field is named once if each
title is and each member names its fields once. -/
theorem nodup_of_gives {title name : F → String}
    (titled : ∀ {e group}, gives e group → ∀ {f : F}, f ∈ group → SpellsString (title f) e.1)
    (listed : ∀ f, title f ∈ names) (same : ∀ {f g}, name f = name g → title f = title g)
    (within : ∀ {e group}, gives e group → (group.map name).Nodup)
    (given : List.Forall₂ gives entries groups) (once : Once names entries) :
    (groups.flatten.map name).Nodup := by
  induction given with
  | nil => exact List.nodup_nil
  | @cons e group entries groups first others ih =>
    obtain ⟨apart, onceRest⟩ := List.pairwise_cons.1 once
    rw [List.flatten_cons, List.map_append, List.nodup_append]
    refine ⟨within first, ih onceRest, ?_⟩
    intro _ here _ later equal
    obtain ⟨f, inGroup, rfl⟩ := List.mem_map.1 here
    obtain ⟨g, inRest, rfl⟩ := List.mem_map.1 later
    obtain ⟨e', member, _, found, inOther⟩ := exists_of_mem_flatten others inRest
    have key := titled found inOther
    rw [← same equal] at key
    exact apart e' member (title f) (listed f) (titled first inGroup) key

end

section

variable {σ : Type} {member : String → σ → Reader σ} {names : List String}
  {has : σ → String → Prop} {good : String → List Char → Prop}

/-- The members read so far have names of their own, which the draft has, and good values. -/
structure ReadOnce (names : List String) (has : σ → String → Prop)
    (good : String → List Char → Prop) (seen : List (List Char × List Char)) (draft : σ) : Prop where
  once : Once names seen
  known : ∀ e ∈ seen, ∀ name, SpellsString name e.1 → good name e.2 ∧ (name ∈ names → has draft name)

theorem readOnce_nil (draft : σ) : ReadOnce names has good [] draft :=
  ⟨.nil, fun _ member => absurd member List.not_mem_nil⟩

/-- If the draft keeps the names that have been read, and none of them is read again, no name
stands twice. What is known of the value of each member is known of all. -/
theorem keeps_once (reads : ∀ name draft value, IsValue value →
      YieldsMember (member name draft) value fun next => good name value ∧
        (∀ n, has draft n → has next n) ∧ (name ∈ names → ¬ has draft name ∧ has next name)) :
    Keeps member (ReadOnce names has good) := by
  intro seen title value key draft _ formed same ⟨once, known⟩ before after hb ha p rest next last
    ends ok
  obtain ⟨stops, holds, kept, fresh⟩ :=
    reads key draft value formed before after hb ha p rest next last ends ok
  refine ⟨stops, ?_, ?_⟩
  · refine List.pairwise_append.2 ⟨once, List.pairwise_singleton _ _, ?_⟩
    intro e member f last name listed first second
    cases List.mem_singleton.1 last
    obtain rfl := same name second
    -- An earlier member of this name would have been remembered, and this one refused.
    exact (fresh listed).1 ((known e member name first).2 listed)
  · intro e member name spelled
    rcases List.mem_append.1 member with earlier | last
    · obtain ⟨holds, given⟩ := known e earlier name spelled
      exact ⟨holds, fun listed => kept name (given listed)⟩
    · cases List.mem_singleton.1 last
      obtain rfl := same name spelled
      exact ⟨holds, fun listed => (fresh listed).2⟩

end

end Reader

end ObsCatalog.Json
