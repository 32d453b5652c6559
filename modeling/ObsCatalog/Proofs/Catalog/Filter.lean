import ObsCatalog.Catalog.Filter
import ObsCatalog.Proofs.Catalog.Operation
import ObsCatalog.Proofs.Sql.Equality
import ObsCatalog.Proofs.Sql.Order
import Mathlib.Tactic.Choose

/-! Filters together.

Filters whose clauses are whole conditions can be joined in any order and with any grouping:
the rows that the result admits are those that all of them admit. The parts of a condition are
not always looked at in the same order, and one that is not looked at cannot fail. So each
filter has to be one that can be used whatever the order is.
-/

set_option autoImplicit false

namespace ObsCatalog

open Sql (Cell Engine Select StoredRow)

namespace Filter

variable {a b c f : Filter} {fs gs : List Filter}

/-- The clause is one whole condition by itself, with anonymous parameters. -/
def IsWhole (f : Filter) : Prop := ∃ ts e, Sql.Condition.Whole f.clause ts e

instance (f : Filter) : Decidable f.IsWhole := decidable_of_iff _ Sql.Condition.isWhole_iff

/-- A filter that comes of joining all filters of a list, from left to right in some grouping. -/
inductive Joins : List Filter → Filter → Prop where
  | single (f : Filter) : Joins [f] f
  | both {fs gs : List Filter} {a b c : Filter} :
      Joins fs a → Joins gs b → a.and b = .ok c → Joins (fs ++ gs) c

theorem checkJoinable_eq_ok_iff : f.checkJoinable = .ok () ↔ hasPositional f.clause = false := by
  unfold checkJoinable
  split
  · next positional => simp [positional]
  · next anonymous => simp [anonymous]

theorem and_eq_ok_iff : a.and b = .ok c ↔
    hasPositional a.clause = false ∧ hasPositional b.clause = false ∧
      c = ⟨Sql.Condition.joined a.clause b.clause, a.params ++ b.params⟩ := by
  rw [← checkJoinable_eq_ok_iff, ← checkJoinable_eq_ok_iff]
  unfold Filter.and
  cases a.checkJoinable with
  | error fault => simp [bind, Except.bind]
  | ok _ =>
    cases b.checkJoinable with
    | error fault => simp [bind, Except.bind]
    | ok _ =>
      simp only [bind, Except.bind, pure, Except.pure, Except.ok.injEq, true_and]
      exact eq_comm

theorem Joins.foldlM {f c : Filter} (joins : Joins fs f) (all : gs.foldlM Filter.and f = .ok c) :
    Joins (fs ++ gs) c := by
  induction gs generalizing fs f with
  | nil =>
    cases all
    rwa [List.append_nil]
  | cons g gs ih =>
    rw [List.foldlM_cons] at all
    cases joined : f.and g with
    | error fault =>
      rw [joined] at all
      cases all
    | ok next =>
      rw [joined] at all
      have more := ih (.both joins (.single g) joined) all
      rwa [List.append_assoc] at more

/-- Joining all filters of a list one after the other is one of the ways to join them. -/
theorem joins_all (all : Filter.all fs = .ok (some c)) : Joins fs c := by
  cases fs with
  | nil => cases all
  | cons f fs =>
    cases folded : fs.foldlM Filter.and f with
    | error fault => simp [Filter.all, folded] at all
    | ok last =>
      simp [Filter.all, folded] at all
      subst all
      exact (Joins.single f).foldlM folded

section Admission

variable {engine : Engine} {db : Sql.Database} {s : Sql.Table}

/-- The rows of a table that a filter admits. If the filter is firm, it does not fail. -/
def Admits (engine : Engine) (db : Sql.Database) (s : Sql.Table) (f : Filter)
    (p : StoredRow → Bool) (firm : Prop) : Prop :=
  Select.Means engine db s f.clause (f.params.map Cell.ofValue) p firm

theorem Admits.and {p q : StoredRow → Bool} {firm firm' : Prop}
    (left : a.Admits engine db s p firm) (right : b.Admits engine db s q firm')
    (joined : a.and b = .ok c) :
    c.Admits engine db s (fun r => p r && q r) (firm ∧ firm') := by
  obtain ⟨-, -, rfl⟩ := and_eq_ok_iff.1 joined
  simpa only [Admits, List.map_append] using Select.Means.joined left right

theorem Admits.imp {p : StoredRow → Bool} {firm firm' : Prop} (admits : a.Admits engine db s p firm)
    (imp : firm' → firm) : a.Admits engine db s p firm' := Select.Means.imp admits imp

theorem Joins.admits {p : Filter → StoredRow → Bool} {firm : Filter → Prop} (joins : Joins fs c)
    (each : ∀ f ∈ fs, f.Admits engine db s (p f) (firm f)) :
    c.Admits engine db s (fun r => fs.all (p · r)) (∀ f ∈ fs, firm f) := by
  induction joins with
  | single f => simpa using each f
  | both first second joined left right =>
    obtain ⟨eachLeft, eachRight⟩ := List.forall_mem_append.1 each
    simpa only [List.all_append, List.forall_mem_append] using
      (left eachLeft).and (right eachRight) joined

end Admission

end Filter

namespace Handle

variable {engine : Engine} {h : Handle} {t : Table} {s : Sql.Table} {f : Filter} {rows : List Row}
  {p : StoredRow → Bool} {firm : Prop}

/-- Rows can be enumerated with a filter in whatever order its terms are tested. -/
def Admissible (engine : Engine) (t : Table) (h : Handle) (f : Filter) : Prop :=
  ∀ plan, ∃ rows, (enumerate t (some f) { engine with plan } h).1 = .ok rows

/-- A stored row as it is shown. -/
def shown (t : Table) (s : Sql.Table) (r : StoredRow) : Row :=
  ⟨t, s.columnNames, (Cell.integer r.id :: r.cells).map Cell.value⟩

theorem shown_injective {a b : StoredRow} (same : shown t s a = shown t s b) : a.id = b.id := by
  have heads := (List.cons.inj (Row.mk.inj same).2.2).1
  exact Value.integer.inj heads

theorem filtered_eq (found : h.connection.database.table t.name = .ok s) (f : Filter) :
    Select.filtered s f.clause = listing t (some f) := by
  rw [Select.filtered, Sql.Database.name_of_table found]
  rfl

theorem admits_of_enumerate (whole : f.IsWhole)
    (done : (enumerate t (some f) engine h).1 = .ok rows) :
    h.isPoisoned = false ∧ ∃ s, h.connection.database.table t.name = .ok s ∧
      ∃ p, f.Admits engine h.connection.database s p (Admissible engine t h f) := by
  obtain ⟨healthy, selected, ran, -⟩ := select_of_ok done
  obtain ⟨s, _, found, -⟩ := Select.rows_of_run ran
  obtain ⟨ts, e, whole⟩ := whole
  have found : h.connection.database.table t.name = .ok s := found
  rw [← filtered_eq found f] at ran
  obtain ⟨p, means⟩ := Select.means_of_run whole (Sql.Database.table_name found) ran
  refine ⟨healthy, s, found, p, means.imp fun each plan => ?_⟩
  obtain ⟨rows, done⟩ := each plan
  obtain ⟨-, selected, ran, -⟩ := select_of_ok done
  exact ⟨selected, (filtered_eq found f).symm ▸ ran⟩

theorem enumerate_of_admits (healthy : h.isPoisoned = false)
    (found : h.connection.database.table t.name = .ok s)
    (admits : f.Admits engine h.connection.database s p firm) (holds : firm) :
    (enumerate t (some f) engine h).1 = .ok ((s.rows.filter p).map (shown t s)) := by
  have ran := admits.run holds (Sql.Database.table_name found)
  rw [filtered_eq found f] at ran
  have done := select_ok t f.params healthy ran
  rw [List.map_map] at done
  exact congrArg Prod.fst done

theorem eq_of_enumerate (found : h.connection.database.table t.name = .ok s)
    (admits : f.Admits engine h.connection.database s p firm)
    (done : (enumerate t (some f) engine h).1 = .ok rows) :
    rows = (s.rows.filter p).map (shown t s) := by
  obtain ⟨-, selected, ran, rfl⟩ := select_of_ok done
  rw [← filtered_eq found f] at ran
  rw [admits.eq_of_run (Sql.Database.table_name found) ran, List.map_map]
  rfl

/-- Whatever statements have led to the database, no row is enumerated twice. -/
theorem nodup_of_enumerate {filter : Option Filter}
    (changes : Relation.ReflTransGen Sql.Database.Changes .empty h.connection.database)
    (done : (enumerate t filter engine h).1 = .ok rows) : rows.Nodup := by
  obtain ⟨-, selected, ran, rfl⟩ := select_of_ok done
  obtain ⟨s, found, known, -, sublist, rfl⟩ := Select.rows_of_run ran
  have ordered := (Sql.Database.ordered_of_changes changes).table known
  rw [List.map_map]
  refine List.pairwise_map.2 ((ordered.sublist (sublist rfl)).imp fun below same => ?_)
  exact Int64.ne_of_lt below (shown_injective same)

theorem eq_of_shown (ordered : Sql.Table.Ordered s.rows) {a b : StoredRow} (first : a ∈ s.rows)
    (second : b ∈ s.rows) (same : shown t s a = shown t s b) : a = b := by
  have ids : (s.rows.map (·.id)).Nodup :=
    List.pairwise_map.2 (ordered.imp fun below => Int64.ne_of_lt below)
  exact List.inj_on_of_nodup_map ids first second (shown_injective same)

theorem nodup_shown (ordered : Sql.Table.Ordered s.rows) (p : StoredRow → Bool) :
    ((s.rows.filter p).map (shown t s)).Nodup := by
  refine List.pairwise_map.2 ((ordered.filter p).imp fun below same => ?_)
  exact Int64.ne_of_lt below (shown_injective same)

/-- The rows that all filters admit are those that come up for every one of them. -/
theorem mem_shown_iff {fs : List Filter} {p : Filter → StoredRow → Bool} (present : fs ≠ [])
    (ordered : Sql.Table.Ordered s.rows) {row : Row} :
    row ∈ (s.rows.filter fun r => fs.all (p · r)).map (shown t s) ↔
      ∀ f ∈ fs, row ∈ (s.rows.filter (p f)).map (shown t s) := by
  simp only [List.mem_map, List.mem_filter, List.all_eq_true]
  constructor
  · rintro ⟨r, ⟨stored, all⟩, rfl⟩ f member
    exact ⟨r, ⟨stored, all f member⟩, rfl⟩
  · intro each
    obtain ⟨g, gs, rfl⟩ := List.exists_cons_of_ne_nil present
    obtain ⟨r, ⟨stored, -⟩, rfl⟩ := each g List.mem_cons_self
    refine ⟨r, ⟨stored, fun f member => ?_⟩, rfl⟩
    obtain ⟨q, ⟨known, admitted⟩, same⟩ := each f member
    rwa [eq_of_shown ordered known stored same] at admitted

end Handle

/-- Rows can be enumerated with each of two filters, but not with what comes of joining them. -/
def Handle.FailsJoined (h : Handle) (t : Table) (a b : Filter) : Prop :=
  (h.enumerate t (some a)).1.isOk ∧ (h.enumerate t (some b)).1.isOk ∧
    ∃ c, a.and b = .ok c ∧ (h.enumerate t (some c)).1.isOk = false

/-- The index on the one side lets a term of the other side be tested that was not reached before,
and this term fails. And a word that can be the name of a column begins a query in parentheses. -/
theorem Filter.fails_joined :
    let sources : Sql.Table := { Schema.sourceTable with
      columns := Schema.sourceTable.columns ++ [⟨"with", .none, false, none, .null⟩]
      rows := [⟨1, [.text "east", .text "token", .text "2020-01-01 00:00:00", .null]⟩] }
    let observations : Sql.Table := { Schema.observationTable .assigned with
      rows := [⟨7, [.integer 1, .real 2459000.5, .text "xx", .real 0.5]⟩] }
    let h : Handle := ⟨.librarian, "", .new ⟨[sources, observations]⟩, "", false⟩
    let a : Filter := ⟨"polarization = 'none' AND source_id LIKE 'x' ESCAPE 'ab'", []⟩
    let b : Filter := ⟨"source_id = ?", [.integer 1]⟩
    a.IsWhole ∧ b.IsWhole ∧ h.FailsJoined .observation a b ∧
      h.FailsJoined .source ⟨"with IS NULL", []⟩ ⟨"id = ?", [.integer 1]⟩ := by
  intro sources observations h a b
  have plain : [a, b, ⟨"with IS NULL", []⟩, ⟨"id = ?", [.integer 1]⟩].all fun f =>
      !hasPositional f.clause := by
    decide +kernel
  simp only [List.all_cons, Bool.and_eq_true, Bool.not_eq_true'] at plain
  obtain ⟨plainA, plainB, plainC, plainD, -⟩ := plain
  refine ⟨by decide +kernel, by decide +kernel, ⟨by decide +kernel, by decide +kernel, _,
    and_eq_ok_iff.2 ⟨plainA, plainB, rfl⟩, ?_⟩, ⟨by decide +kernel, by decide +kernel, _,
    and_eq_ok_iff.2 ⟨plainC, plainD, rfl⟩, ?_⟩⟩
  · decide +kernel
  · decide +kernel

/-- Filters whose clauses are whole conditions and with which rows of a table can be enumerated
can be joined in any order and with any grouping. The rows that are enumerated with the result are
those that all filters admit, each once. They are enumerated if they can be with each filter in
whatever order its terms are tested. -/
theorem Filter.enumerate_all {engine : Engine} {h : Handle} {t : Table} {fs : List Filter}
    (present : fs ≠ []) (whole : ∀ f ∈ fs, f.IsWhole)
    (each : ∀ f ∈ fs, ∃ rows, (Handle.enumerate t (some f) engine h).1 = .ok rows)
    (ordered : h.connection.database.Ordered) :
    ∃ rows : List Row, rows.Nodup ∧
      (∀ row, row ∈ rows ↔
        ∀ f ∈ fs, ∃ found, (Handle.enumerate t (some f) engine h).1 = .ok found ∧ row ∈ found) ∧
      ∀ gs c, gs.Perm fs → Filter.Joins gs c ∨ Filter.all gs = .ok (some c) → ∀ plan,
        (∀ found, (Handle.enumerate t (some c) { engine with plan } h).1 = .ok found →
          found = rows) ∧
        ((∀ f ∈ fs, Handle.Admissible engine t h f) →
          (Handle.enumerate t (some c) { engine with plan } h).1 = .ok rows) := by
  obtain ⟨g, member⟩ := List.exists_mem_of_ne_nil fs present
  obtain ⟨_, done⟩ := each g member
  obtain ⟨healthy, s, found, -⟩ := Handle.admits_of_enumerate (whole g member) done
  have admits : ∀ f, ∃ p, f ∈ fs →
      f.Admits engine h.connection.database s p (Handle.Admissible engine t h f) := by
    intro f
    by_cases member : f ∈ fs
    · obtain ⟨_, done⟩ := each f member
      obtain ⟨-, s', found', p, admits⟩ := Handle.admits_of_enumerate (whole f member) done
      obtain rfl : s = s' := Except.ok.inj (found.symm.trans found')
      exact ⟨p, fun _ => admits⟩
    · exact ⟨fun _ => false, fun other => absurd other member⟩
  -- The rows are fixed here, before any order or grouping is given.
  choose p admits using admits
  refine ⟨(s.rows.filter fun r => fs.all (p · r)).map (Handle.shown t s),
    Handle.nodup_shown (ordered.table found) _, fun row => ?_, fun gs c perm joins plan => ?_⟩
  · rw [Handle.mem_shown_iff present (ordered.table found)]
    refine forall₂_congr fun f member => ?_
    obtain ⟨rows, done⟩ := each f member
    rw [← Handle.eq_of_enumerate found (admits f member) done, done]
    simp
  · -- Whether all filters admit a row does not depend on their order.
    have same : (fun r : StoredRow => gs.all (p · r)) = fun r => fs.all (p · r) :=
      funext fun r => perm.all_eq
    have joins : Filter.Joins gs c := joins.elim id joins_all
    have all := joins.admits fun f member => admits f (perm.subset member)
    rw [same] at all
    refine ⟨fun rows done => Handle.eq_of_enumerate found (all.planned plan) done, fun firm => ?_⟩
    exact Handle.enumerate_of_admits healthy found (all.planned plan)
      fun f member => firm f (perm.subset member)

theorem Filter.enumerate_all_both_ways :
    ∃ (h : Handle) (a b c d : Filter), a.and b = .ok c ∧ b.and a = .ok d ∧
      ∃ rows, (h.enumerate .source (some c)).1 = .ok rows ∧
        (h.enumerate .source (some d)).1 = .ok rows ∧ rows.length = 1 := by
  let named : Sql.Table := ⟨"source", "id", [⟨"name", .text, true, none, .null⟩], none, none, [],
    [⟨1, [.text "east"]⟩, ⟨2, [.text "west"]⟩, ⟨3, [.text "east"]⟩]⟩
  let h : Handle := ⟨.librarian, "", .new ⟨[named]⟩, "", false⟩
  let a : Filter := ⟨"id" ++ " = ?", [.integer 3]⟩
  let b : Filter := ⟨"name" ++ " = ?", [.text "east"]⟩
  have whole : ∀ f ∈ [a, b], f.IsWhole := by decide +kernel
  have found : h.connection.database.table Table.source.name = .ok named := rfl
  have ordered : h.connection.database.Ordered := by
    refine List.forall_mem_singleton.2 ?_
    show List.Pairwise _ named.rows
    decide +kernel
  have admits : ∀ f ∈ [a, b], ∃ p, f.Admits .standard h.connection.database named p True := by
    have id : Sql.Mention.columnOf named "id" = some ⟨none, .integer⟩ := by decide +kernel
    have name : Sql.Mention.columnOf named "name" = some ⟨some 0, .text⟩ := by decide +kernel
    simp only [List.forall_mem_cons]
    exact ⟨⟨_, Select.means_equality ⟨rfl, rfl⟩ id (.integer 3)⟩,
      ⟨_, Select.means_equality ⟨rfl, rfl⟩ name (.text "east")⟩, nofun⟩
  have firm : ∀ f ∈ [a, b], Handle.Admissible .standard .source h f := by
    intro f member plan
    obtain ⟨p, admits⟩ := admits f member
    exact ⟨_, Handle.enumerate_of_admits rfl found (admits.planned plan) trivial⟩
  have plain : Filter.hasPositional a.clause = false ∧ Filter.hasPositional b.clause = false := by
    decide +kernel
  have forth := Filter.and_eq_ok_iff.2 ⟨plain.1, plain.2, rfl⟩
  have back := Filter.and_eq_ok_iff.2 ⟨plain.2, plain.1, rfl⟩
  obtain ⟨rows, -, -, others⟩ := Filter.enumerate_all (List.cons_ne_nil a [b]) whole
    (fun f member => firm f member .lookupFirst) ordered
  have first := (others [a, b] _ (.refl _) (.inl (.both (.single a) (.single b) forth))
    .lookupFirst).2 firm
  have second := (others [b, a] _ (.swap a b []) (.inl (.both (.single b) (.single a) back))
    .lookupFirst).2 firm
  have one : (h.enumerate .source (some ⟨Sql.Condition.joined a.clause b.clause,
      a.params ++ b.params⟩)).1.toOption.map List.length = some 1 := by
    decide +kernel
  have some : (some rows).map List.length = some 1 := by
    rw [← one]
    exact congrArg (·.toOption.map List.length) first.symm
  exact ⟨h, a, b, _, _, forth, back, rows, first, second, Option.some.inj some⟩

end ObsCatalog
