import ObsCatalog.CommandLine.Run
import ObsCatalog.Proofs.Catalog.Filter
import ObsCatalog.Proofs.Catalog.Placeholder

/-! Joining filters.

Filters that leave no quote open and have anonymous placeholders only can be joined with any
grouping, and what comes of it is such a filter again. Its clause has the placeholders of the
parts one after the other, each with the value that it had. The clause does not depend on any
value.
-/

set_option autoImplicit false

namespace ObsCatalog

inductive Grouping (α : Type) where
  | one (a : α)
  | both (left right : Grouping α)

namespace Grouping

variable {α β : Type}

def leaves : Grouping α → List α
  | .one a => [a]
  | .both left right => left.leaves ++ right.leaves

def map (f : α → β) : Grouping α → Grouping β
  | .one a => .one (f a)
  | .both left right => .both (left.map f) (right.map f)

/-- The filter that comes of making a filter of each thing and joining them in their groups. -/
def joined (make : α → Except CatalogFault Filter) : Grouping α → Except CatalogFault Filter
  | .one a => make a
  | .both left right => do
    let a ← left.joined make
    let b ← right.joined make
    a.and b

end Grouping

namespace Filter

variable {a b c f : Filter}

/-- No quote is left open, and no placeholder has a number or a name. -/
structure IsJoinable (f : Filter) : Prop where
  closed : IsClosed f.clause
  anonymous : hasPositional f.clause = false

def IsFilled (f : Filter) : Prop := (placeholders f.clause).length = f.params.length

def bindings (f : Filter) : List (Nat × Value) := (placeholders f.clause).zip f.params

def Stands (part : String) (place : Nat) (whole : String) : Prop :=
  ∃ front back, whole = front ++ part ++ back ∧ front.length = place

theorem Stands.within {part whole : String} {place : Nat} (stands : Stands part place whole)
    (front back : String) : Stands part (place + front.length) (front ++ whole ++ back) := by
  obtain ⟨before, after, rfl, rfl⟩ := stands
  refine ⟨front ++ before, after ++ back, ?_, ?_⟩
  · simp only [String.append_assoc]
  · rw [String.length_append, Nat.add_comm]

/-- Some filters stand in the clause of another one, each at a place, and its placeholders are
theirs in the same order. If each of them has its values, so has it. -/
structure Lays (parts : List (Filter × Nat)) (f : Filter) : Prop where
  stands : ∀ p ∈ parts, Stands p.1.clause p.2 f.clause
  placeholders : placeholders f.clause =
    parts.flatMap fun p => (Filter.placeholders p.1.clause).map (· + p.2)
  bindings : (∀ p ∈ parts, p.1.IsFilled) → f.IsFilled ∧
    f.bindings = parts.flatMap fun p => p.1.bindings.map fun (place, v) => (place + p.2, v)

theorem lays_one (f : Filter) : Lays [(f, 0)] f where
  stands := List.forall_mem_singleton.2 ⟨"", "", by simp, rfl⟩
  placeholders := by simp
  bindings := by simp [bindings]

def moved (parts : List (Filter × Nat)) (count : Nat) : List (Filter × Nat) :=
  parts.map fun p => (p.1, p.2 + count)

theorem moved_fst (parts : List (Filter × Nat)) (count : Nat) :
    (moved parts count).map (·.1) = parts.map (·.1) := by
  simp only [moved, List.map_map]
  rfl

theorem Lays.moved_stands {parts : List (Filter × Nat)} (lays : Lays parts a)
    (front back : String) :
    ∀ p ∈ moved parts front.length, Stands p.1.clause p.2 (front ++ a.clause ++ back) := by
  intro p member
  obtain ⟨q, known, rfl⟩ := List.mem_map.1 member
  exact (lays.stands q known).within front back

theorem placeholders_joined (left : a.IsJoinable) (right : b.IsJoinable) :
    placeholders (Sql.Condition.joined a.clause b.clause) =
      (placeholders a.clause).map (· + 1) ++
        (placeholders b.clause).map (· + (a.clause.length + 8)) :=
  places_joined Mark.isKind_isAnonymous left.closed right.closed

theorem isFilled_joined (left : a.IsJoinable) (right : b.IsJoinable) (first : a.IsFilled)
    (second : b.IsFilled) :
    IsFilled ⟨Sql.Condition.joined a.clause b.clause, a.params ++ b.params⟩ := by
  simp only [IsFilled] at first second
  simp only [IsFilled, placeholders_joined left right, List.length_append, List.length_map, first,
    second]

theorem bindings_joined (left : a.IsJoinable) (right : b.IsJoinable) (first : a.IsFilled) :
    bindings ⟨Sql.Condition.joined a.clause b.clause, a.params ++ b.params⟩ =
      a.bindings.map (fun (place, v) => (place + 1, v)) ++
        b.bindings.map fun (place, v) => (place + (a.clause.length + 8), v) := by
  have lengths : ((placeholders a.clause).map (· + 1)).length = a.params.length :=
    (List.length_map _).trans first
  simp only [bindings, placeholders_joined left right, List.zip_append lengths, List.zip_map_left]
  rfl

theorem Lays.and {left right : List (Filter × Nat)} (first : Lays left a) (second : Lays right b)
    (joinableA : a.IsJoinable) (joinableB : b.IsJoinable) :
    Lays (moved left 1 ++ moved right (a.clause.length + 8))
      ⟨Sql.Condition.joined a.clause b.clause, a.params ++ b.params⟩ where
  stands := by
    -- The first clause starts after one parenthesis, the second one after `) AND (` as well.
    have opening : Sql.Condition.joined a.clause b.clause =
        "(" ++ a.clause ++ (") AND (" ++ b.clause ++ ")") := by
      simp only [Sql.Condition.joined, String.append_assoc]
    have ending : ("(" ++ a.clause ++ ") AND (").length = a.clause.length + 8 := by
      simp only [String.length_append]
      show 1 + a.clause.length + 7 = _
      omega
    refine List.forall_mem_append.2 ⟨?_, ?_⟩
    · rw [opening]
      exact first.moved_stands "(" _
    · rw [← ending]
      exact second.moved_stands ("(" ++ a.clause ++ ") AND (") ")"
  placeholders := by
    rw [placeholders_joined joinableA joinableB, first.placeholders, second.placeholders]
    simp [moved, List.map_flatMap, List.flatMap_map, Function.comp_def, Nat.add_assoc]
  bindings filled := by
    obtain ⟨filledLeft, filledRight⟩ := List.forall_mem_append.1 filled
    simp only [moved, List.forall_mem_map] at filledLeft filledRight
    obtain ⟨filledA, bindingsA⟩ := first.bindings filledLeft
    obtain ⟨filledB, bindingsB⟩ := second.bindings filledRight
    refine ⟨isFilled_joined joinableA joinableB filledA filledB, ?_⟩
    rw [bindings_joined joinableA joinableB filledA, bindingsA, bindingsB]
    simp [moved, List.map_flatMap, List.flatMap_map, Function.comp_def, Nat.add_assoc]

theorem IsJoinable.and (left : a.IsJoinable) (right : b.IsJoinable) :
    IsJoinable ⟨Sql.Condition.joined a.clause b.clause, a.params ++ b.params⟩ where
  closed := left.closed.joined right.closed
  anonymous := by
    have first := hasPositional_eq_false_iff.1 left.anonymous
    have second := hasPositional_eq_false_iff.1 right.anonymous
    rw [hasPositional_eq_false_iff,
      places_joined Mark.isKind_isPositional left.closed right.closed, first, second]
    rfl

/-- Filters that can be joined are joined in whatever groups. -/
theorem joined_leaves (g : Grouping Filter) (joinable : ∀ f ∈ g.leaves, f.IsJoinable) :
    ∃ c parts, g.joined .ok = .ok c ∧ c.IsJoinable ∧ c.params = g.leaves.flatMap (·.params) ∧
      parts.map (·.1) = g.leaves ∧ Lays parts c := by
  induction g with
  | one f =>
    have params : f.params = [f].flatMap (·.params) := by simp
    exact ⟨f, [(f, 0)], rfl, joinable f (List.mem_singleton_self f), params, rfl, lays_one f⟩
  | both left right first second =>
    obtain ⟨eachLeft, eachRight⟩ := List.forall_mem_append.1 joinable
    obtain ⟨a, partsA, doneA, joinableA, paramsA, leavesA, laysA⟩ := first eachLeft
    obtain ⟨b, partsB, doneB, joinableB, paramsB, leavesB, laysB⟩ := second eachRight
    have done := and_eq_ok_iff.2 ⟨joinableA.anonymous, joinableB.anonymous, rfl⟩
    refine ⟨_, _, ?_, joinableA.and joinableB, ?_, ?_, laysA.and laysB joinableA joinableB⟩
    · simp only [Grouping.joined, doneA, doneB, bind, Except.bind]
      exact done
    · rw [paramsA, paramsB, Grouping.leaves, List.flatMap_append]
    · rw [List.map_append, moved_fst, moved_fst, leavesA, leavesB]
      rfl

theorem isPlain_of_isColumnName {column : String} (name : isColumnName column) :
    ∀ c ∈ column.toList, Mark.isPlain c := by
  have plain (c : Char) (known : isColumnChar c) : Mark.isPlain c := by
    by_contra special
    simp only [Mark.isPlain, Bool.not_eq_true, Bool.not_eq_false', List.contains_iff_mem] at special
    have none : ['?', ':', '@', '$', '\'', '"'].all fun c => !isColumnChar c := rfl
    simpa [known] using List.all_eq_true.1 none c special
  unfold isColumnName at name
  cases shape : column.toList with
  | nil => exact fun c member => absurd member List.not_mem_nil
  | cons c rest =>
    rw [shape] at name
    obtain ⟨first, others⟩ := Bool.and_eq_true_iff.1 name
    have start : isColumnChar c := by
      simp only [isColumnStart, Bool.or_eq_true] at first
      simp only [isColumnChar, Char.isAlphanum, Bool.or_eq_true]
      exact first.imp_left .inl
    exact List.forall_mem_cons.2 ⟨plain c start,
      fun c member => plain c (List.all_eq_true.1 others c member)⟩

theorem eq_eq_ok_iff {column : String} {value : Value} :
    Filter.eq column value = .ok f ↔ isColumnName column ∧ f = ⟨column ++ " = ?", [value]⟩ := by
  unfold Filter.eq
  split
  · next name => simp [name, eq_comm]
  · next other => simp [other]

theorem isJoinable_eq {column : String} {value : Value} (made : Filter.eq column value = .ok f) :
    f.IsJoinable ∧ (placeholders f.clause).length = 1 ∧ f.params = [value] := by
  obtain ⟨name, rfl⟩ := eq_eq_ok_iff.1 made
  have plain := isPlain_of_isColumnName name
  have text : (column ++ " = ?").toList = column.toList ++ [' ', '=', ' ', '?'] := by simp
  refine ⟨⟨?_, ?_⟩, ?_, rfl⟩
  · have unquoted := quoteLeft_of_not_isQuote fun c member =>
      not_isQuote_of_isPlain (plain c member)
    rw [IsClosed, text, quoteLeft_append, unquoted]
    rfl
  · rw [hasPositional_eq_false_iff, text, places_plain_append Mark.isKind_isPositional _ plain]
    rfl
  · rw [placeholders, text, places_plain_append Mark.isKind_isAnonymous _ plain]
    rfl

/-! Values.

Two runs differ in the values that they are given. What they yield is compared by its texts. -/

section Texts

variable {ε α β γ δ κ : Type} {t : α → β} {u : γ → δ}

theorem map_bind_congr {x y : Except ε α} {f g : α → Except ε γ} (same : x.map t = y.map t)
    (next : ∀ a b, t a = t b → (f a).map u = (g b).map u) :
    (x >>= f).map u = (y >>= g).map u := by
  cases x with
  | error fault =>
    cases y with
    | error other =>
      cases same
      rfl
    | ok b => cases same
  | ok a =>
    cases y with
    | error other => cases same
    | ok b => exact next a b (Except.ok.inj same)

theorem map_mapM_congr {key : γ → κ} {f : γ → Except ε α}
    (each : ∀ p q, key p = key q → (f p).map t = (f q).map t) {ps qs : List γ}
    (same : ps.map key = qs.map key) :
    (ps.mapM f).map (List.map t) = (qs.mapM f).map (List.map t) := by
  induction ps generalizing qs with
  | nil =>
    cases qs with
    | nil => rfl
    | cons q qs => cases same
  | cons p ps ih =>
    cases qs with
    | nil => cases same
    | cons q qs =>
      obtain ⟨first, others⟩ := List.cons.inj same
      simp only [List.mapM_cons]
      refine map_bind_congr (each p q first) fun a b sameText => ?_
      refine map_bind_congr (ih others) fun as bs sameTexts => ?_
      exact congrArg Except.ok (List.cons_eq_cons.2 ⟨sameText, sameTexts⟩)

end Texts

theorem text_eq (column : String) (first second : Value) :
    (Filter.eq column first).map clause = (Filter.eq column second).map clause := by
  unfold Filter.eq
  split <;> rfl

theorem text_and {a b c d : Filter} (first : a.clause = c.clause) (second : b.clause = d.clause) :
    (a.and b).map clause = (c.and d).map clause := by
  have checked {f g : Filter} (same : f.clause = g.clause) :
      f.checkJoinable = g.checkJoinable := by simp only [checkJoinable, same]
  rw [Filter.and, Filter.and, checked first, checked second]
  refine map_bind_congr (t := id) rfl fun _ _ _ => map_bind_congr (t := id) rfl fun _ _ _ => ?_
  simp only [pure, Except.pure, Except.map, first, second]

/-- What is made of things that have the same keys has the same text in the same groups. -/
theorem text_joined {α κ : Type} {key : α → κ} {make : α → Except CatalogFault Filter}
    (each : ∀ p q, key p = key q → (make p).map clause = (make q).map clause) {g h : Grouping α}
    (same : g.map key = h.map key) :
    (g.joined make).map clause = (h.joined make).map clause := by
  induction g generalizing h with
  | one p =>
    cases h with
    | one q => exact each p q (Grouping.one.inj same)
    | both left right => cases same
  | both left right first second =>
    cases h with
    | one q => cases same
    | both left' right' =>
      obtain ⟨sameLeft, sameRight⟩ := Grouping.both.inj same
      refine map_bind_congr (first sameLeft) fun a c sameA => ?_
      exact map_bind_congr (second sameRight) fun b d sameB => text_and sameA sameB

theorem text_foldlM {fs gs : List Filter} {a b : Filter} (first : a.clause = b.clause)
    (same : fs.map clause = gs.map clause) :
    (fs.foldlM Filter.and a).map clause = (gs.foldlM Filter.and b).map clause := by
  induction fs generalizing gs a b with
  | nil =>
    cases gs with
    | nil => exact congrArg Except.ok first
    | cons g gs => cases same
  | cons f fs ih =>
    cases gs with
    | nil => cases same
    | cons g gs =>
      obtain ⟨sameFirst, sameOthers⟩ := List.cons.inj same
      simp only [List.foldlM_cons]
      exact map_bind_congr (text_and first sameFirst) fun c d sameText => ih sameText sameOthers

/-- Joining one after the other has a text that depends on those of the parts alone. -/
theorem text_all {fs gs : List Filter} (same : fs.map clause = gs.map clause) :
    (Filter.all fs).map (Option.map clause) = (Filter.all gs).map (Option.map clause) := by
  cases fs with
  | nil =>
    cases gs with
    | nil => rfl
    | cons g gs => cases same
  | cons f fs =>
    cases gs with
    | nil => cases same
    | cons g gs =>
      obtain ⟨sameFirst, sameOthers⟩ := List.cons.inj same
      simp only [Filter.all, map_eq_pure_bind]
      refine map_bind_congr (text_foldlM sameFirst sameOthers) fun c d sameText => ?_
      exact congrArg (Except.ok ∘ some) sameText

/-- What filter is asked for on the command line depends on which columns are given, and its
text does not depend on what they are compared with. -/
theorem text_equalities {given other : List (String × Option Value)}
    (same : given.map (fun p => (p.1, p.2.isSome)) = other.map fun p => (p.1, p.2.isSome)) :
    (CommandLine.equalities given).map (Option.map clause) =
      (CommandLine.equalities other).map (Option.map clause) := by
  have each (p q : String × Option Value) (same : (p.1, p.2.isSome) = (q.1, q.2.isSome)) :
      (CommandLine.equality p.1 p.2).map (List.map clause) =
        (CommandLine.equality q.1 q.2).map (List.map clause) := by
    obtain ⟨column, value⟩ := p
    obtain ⟨other, compared⟩ := q
    obtain ⟨rfl, present⟩ := Prod.mk.inj same
    cases value with
    | none =>
      cases compared with
      | none => rfl
      | some w => cases present
    | some v =>
      cases compared with
      | none => cases present
      | some w =>
        simp only [CommandLine.equality, Filter.eq]
        split <;> rfl
  refine map_bind_congr (map_mapM_congr each same) fun fs gs sameTexts => text_all ?_
  rw [List.map_flatten, List.map_flatten, sameTexts]

/-- Filters that leave no quote open and have anonymous placeholders only are joined in any
groups, and what comes of it is such a filter with their placeholders and values in line. The
equality of a column with a value is such a filter; whatever groups such equalities are joined
in, as on the command line, the text is the same for all values. -/
theorem joinable_in_groups :
    (∀ g : Grouping Filter, (∀ f ∈ g.leaves, f.IsJoinable) →
      ∃ c parts, g.joined .ok = .ok c ∧ c.IsJoinable ∧ c.params = g.leaves.flatMap (·.params) ∧
        parts.map (·.1) = g.leaves ∧ Lays parts c) ∧
    (∀ column value f, Filter.eq column value = .ok f →
      f.IsJoinable ∧ (placeholders f.clause).length = 1 ∧ f.params = [value] ∧
        ∀ other, (Filter.eq column other).map clause = .ok f.clause) ∧
    (∀ g h : Grouping (String × Value), g.map (·.1) = h.map (·.1) →
      (g.joined fun p => Filter.eq p.1 p.2).map clause =
        (h.joined fun p => Filter.eq p.1 p.2).map clause) ∧
    ∀ given other : List (String × Option Value),
      given.map (fun p => (p.1, p.2.isSome)) = other.map (fun p => (p.1, p.2.isSome)) →
      (CommandLine.equalities given).map (Option.map clause) =
        (CommandLine.equalities other).map (Option.map clause) := by
  refine ⟨joined_leaves, fun column value f made => ?_, fun g h same => ?_,
    fun given other same => text_equalities same⟩
  · obtain ⟨joinable, one, values⟩ := isJoinable_eq made
    refine ⟨joinable, one, values, fun other => ?_⟩
    rw [text_eq column other value, made]
    rfl
  · refine text_joined (fun p q column => ?_) same
    rw [column]
    exact text_eq q.1 p.2 q.2

/-- A question mark in quotes is not counted. -/
theorem joinable_in_groups_quoted :
    ∃ g c, g = Grouping.both (.one ⟨"note <> '?1'", []⟩)
        (.both (.one ⟨"id < ?", [.integer 3]⟩) (.one ⟨"name = ?", [.text "it's"]⟩)) ∧
      g.joined .ok = .ok c ∧ c.IsJoinable ∧
      c.clause = "(note <> '?1') AND ((id < ?) AND (name = ?))" ∧
      c.bindings = [(26, .integer 3), (41, .text "it's")] := by
  let a : Filter := ⟨"note <> '?1'", []⟩
  let b : Filter := ⟨"id < ?", [.integer 3]⟩
  let c : Filter := ⟨"name = ?", [.text "it's"]⟩
  let g : Grouping Filter := .both (.one a) (.both (.one b) (.one c))
  have plain : ∀ f ∈ [a, b, c],
      quoteLeft none f.clause.toList = none ∧ hasPositional f.clause = false := by decide +kernel
  obtain ⟨d, parts, done, joinable, params, -⟩ :=
    joinable_in_groups.1 g fun f member => ⟨(plain f member).1, (plain f member).2⟩
  have made : (g.joined .ok).toOption.map (fun f => (f.clause, placeholders f.clause)) =
      some ("(note <> '?1') AND ((id < ?) AND (name = ?))", [26, 41]) := by decide +kernel
  rw [done] at made
  obtain ⟨text, places⟩ := Prod.mk.inj (Option.some.inj made)
  refine ⟨g, d, rfl, done, joinable, text, ?_⟩
  rw [bindings, places, params]
  rfl

end Filter

end ObsCatalog
