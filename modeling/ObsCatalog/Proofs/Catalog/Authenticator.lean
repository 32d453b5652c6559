import ObsCatalog.Proofs.Catalog.Equality
import ObsCatalog.Proofs.Catalog.Sequence

/-! Sources with one authenticator.

Sources are only ever added, and each gets a greater id than all before it. So the source that is
found for an authenticator is the first that has been inserted with it, and no later one takes its
place.
-/

set_option autoImplicit false

namespace ObsCatalog

open Sql (Cell ColumnRef Connection Mention Select StoredRow)

namespace Ledger

variable {l : Ledger}

def authenticatorColumn : ColumnRef := ⟨some 1, .text⟩

theorem run_findingSource (l : Ledger) (token : String) :
    Handle.findingSource.run l.database [.text token] =
      .ok ⟨l.sourceTable.columnNames,
        ((l.sourceTable.rows.filter (·.matches authenticatorColumn (.text token))).take 1).map
          fun r => .integer r.id :: r.cells⟩ := by
  have condition : Handle.findingSource.read =
      .ok ⟨.compare .equal (.column (.column none "authenticator" false 0)) (.parameter 1), 1⟩ := by
    simp only [Select.read, Handle.findingSource, Sql.read_authenticator]
  have columns (name : String) : Mention.columnOf l.sourceTable name =
      Mention.columnOf Schema.sourceTable name := rfl
  have compared : Mention.columnOf l.sourceTable "authenticator" = some authenticatorColumn :=
    (columns _).trans rfl
  have key : Mention.columnOf l.sourceTable "id" = some ⟨none, .integer⟩ := (columns _).trans rfl
  have resolved : Handle.findingSource.resolve .standard l.database l.sourceTable
      (.compare .equal (.column (.column none "authenticator" false 0)) (.parameter 1)) =
      .ok (.compare .equal (.column authenticatorColumn) (.parameter 1)) :=
    Select.resolve_equality compared 1 0
  have order : Handle.findingSource.order l.sourceTable = .ok (some ⟨none, .integer⟩) := by
    simp only [Select.order, Handle.findingSource, key]
  rw [Select.run_eq condition l.table_source resolved order rfl (Select.steady_equality _ _ _ _)]
  -- Rows come in the order of their ids anyway.
  simp only [Sql.Expr.selects_equality, Select.arrange, Handle.findingSource, Option.elim]
  rfl

theorem matches_authenticator (s : Source) (token : String) :
    (Kept.row s).matches authenticatorColumn (.text token) = (s.authenticator == token) := by
  show (Cell.compared .text .equal (.text s.authenticator) (.text token) == some true) = _
  rw [Cell.compared_text]
  simp

end Ledger

namespace Handle

variable {h : Handle} {l : Ledger}

theorem Holds.findSource (holds : h.Holds l) (sound : l.Sound) (healthy : h.isPoisoned = false)
    (token : String) :
    Handle.findSource token h =
      (.ok (l.sources.entries.find? (·.authenticator == token)), { h with lastError := "" }) := by
  have selected := l.run_findingSource token
  rw [← holds.database] at selected
  have done := select_ok .source [.text token] healthy selected
  rw [List.map_map] at done
  have first : (((l.sourceTable.rows.filter
      (·.matches Ledger.authenticatorColumn (.text token))).take 1).map
        (selectedRow l .source)).head? =
      (l.sources.entries.find? (·.authenticator == token)).map Source.row := by
    rw [List.head?_map, List.head?_take, if_neg Nat.one_ne_zero, List.head?_filter]
    show ((l.sources.entries.map Kept.row).find? _).map _ = _
    simp only [List.find?_map, Function.comp_def, Ledger.matches_authenticator, Option.map_map,
      selectedRow_source]
  rw [Handle.findSource, reading_ok done]
  refine congrArg (·, _) ?_
  show Option.mapM Source.ofRow (((l.sourceTable.rows.filter
      (·.matches Ledger.authenticatorColumn (.text token))).take 1).map
        (selectedRow l .source)).head? = _
  rw [first]
  cases known : l.sources.entries.find? (·.authenticator == token) with
  | none => rfl
  | some s =>
    -- Times are kept without fractions, so the record is read back as it is.
    have whole := sound.whole s (List.mem_of_find?_eq_some known)
    simp [Source.ofRow_row whole]

theorem Holds.listSources_authenticator (holds : h.Holds l) (sound : l.Sound)
    (healthy : h.isPoisoned = false) (token : String) :
    ∃ f, Filter.eq "authenticator" (.text token) = .ok f ∧
      (Handle.listSources (some f) .standard h).1 =
        .ok (l.sources.entries.filter (·.authenticator == token)) := by
  have declared : ("authenticator", .text) ∈ (l.table .source).typedColumns :=
    List.mem_of_getElem? (show _[2]? = _ from rfl)
  obtain ⟨f, made, listed⟩ :=
    holds.enumerate_eq (v := .text token) sound healthy declared (.inl rfl)
  refine ⟨f, made, ?_⟩
  rw [Handle.listSources, reading_ok (Prod.ext (listed .standard) rfl)]
  exact sound.mapM_sources _

end Handle

def Operation.inserted : (op : Operation) → Except CatalogFault op.Result → List Source
  | .insertSource s _, .ok id => [s.kept id]
  | _, _ => []

theorem Shelf.insertOrdered_eq_append {α : Type} [Kept α] {a : α} {entries : List α}
    (last : ∀ b ∈ entries, Kept.key b < Kept.key a) :
    insertOrdered a entries = entries ++ [a] := by
  induction entries with
  | nil => rfl
  | cons b rest ih =>
    obtain ⟨before, others⟩ := List.forall_mem_cons.1 last
    rw [insertOrdered, if_neg (Int64.not_lt.2 (Int64.le_of_lt before)), ih others,
      List.cons_append]

/-- Entries stand in the order of their ids, so the first of some is the one with the least. -/
theorem Shelf.Sound.find?_eq_some_iff {α : Type} [Kept α] {entries : Shelf α}
    (sound : entries.Sound) {p : α → Bool} {a : α} :
    entries.entries.find? p = some a ↔
      a ∈ entries.entries.filter p ∧ ∀ b ∈ entries.entries.filter p, Kept.key a ≤ Kept.key b := by
  have ordered := sound.ordered.filter p
  rw [← List.head?_filter]
  cases shape : entries.entries.filter p with
  | nil => simp
  | cons first rest =>
    rw [shape] at ordered
    obtain ⟨least, -⟩ := List.pairwise_cons.1 ordered
    rw [List.head?_cons, Option.some.injEq]
    constructor
    · rintro rfl
      refine ⟨List.mem_cons_self, List.forall_mem_cons.2 ⟨Int64.le_refl _, ?_⟩⟩
      exact fun b member => Int64.le_of_lt (least b member)
    · rintro ⟨member, below⟩
      rcases List.mem_cons.1 member with rfl | member
      · rfl
      · exact absurd (below first List.mem_cons_self) (Int64.not_le.2 (least a member))

namespace Ledger

variable {l next : Ledger}

theorem Sound.entries_of_insertSource (sound : l.Sound) {s : Source} {id : Int64}
    (kept : l.insertSource s = .ok (id, next)) :
    next.sources.entries = l.sources.entries ++ [s.kept id] := by
  unfold insertSource at kept
  split at kept
  · cases kept
  · next below =>
    cases kept
    refine Shelf.insertOrdered_eq_append fun b entry => ?_
    exact Int64.lt_of_le_of_lt (sound.sources.le_last b entry) (Sql.Table.lt_add_one below)

theorem sources_of_insertObservation {o : Observation} {policy : IdPolicy} {draws : Sql.Draws}
    {id : Int64}
    (kept : l.insertObservation o policy draws = .ok (id, next)) : next.sources = l.sources := by
  obtain ⟨-, -, rfl⟩ := insertObservation_eq_ok_iff.1 kept
  rfl

/-- An operation adds the sources that it has inserted, and leaves those that were there. -/
theorem Sound.entries_of_answers (sound : l.Sound) {op : Operation}
    {result : Except CatalogFault op.Result} (answers : l.Answers op result next) :
    next.sources.entries = l.sources.entries ++ op.inserted result := by
  -- What has succeeded was expected to succeed, with the same id.
  have meets {expected : Except CatalogFault (Int64 × Ledger)} {id : Int64}
      (met : l.Meets expected (.ok id) next) : expected = .ok (id, next) := by
    cases expected with
    | error fault => cases met.1
    | ok pair =>
      obtain ⟨given, rfl⟩ := met
      cases given
      rfl
  cases result with
  | error fault =>
    have none : op.inserted (.error fault) = [] := by cases op <;> rfl
    rw [eq_of_answers_error answers, none, List.append_nil]
  | ok a =>
    cases op with
    | insertSource s draws => exact sound.entries_of_insertSource (meets answers)
    | insertObservation o policy draws =>
      rw [sources_of_insertObservation (meets answers)]
      exact (List.append_nil _).symm
    | _ =>
      rw [eq_of_answers_reading rfl answers]
      exact (List.append_nil _).symm

end Ledger

namespace Session

open Handle

/-- What has been done to a session since it began, by operations, tasks that fail and tasks that
break off, with handles dropped and the file opened again in between. The sources that have
been inserted are listed from the first to the last. -/
inductive History (home : Home) (start : Session) : List Source → Session → Prop where
  | start : History home start [] start
  | operate {given : List Source} {front back : List Handle} {h : Handle} {disk : CatalogDisk}
      (op : Operation) : History home start given ⟨front ++ h :: back, disk⟩ →
      History home start (given ++ op.inserted (h.perform (op.action disk) disk).1)
        ⟨front ++ (h.perform (op.action disk) disk).2.1 :: back,
          (h.perform (op.action disk) disk).2.2⟩
  | fail {given : List Source} {front back : List Handle} {h : Handle} {disk : CatalogDisk}
      {α : Type} {task : Connection → Except CatalogFault (α × Connection)}
      {fault : CatalogFault} : History home start given ⟨front ++ h :: back, disk⟩ →
      (h.perform (execute task) disk).1 = .error fault →
      History home start given ⟨front ++ (h.perform (execute task) disk).2.1 :: back,
        (h.perform (execute task) disk).2.2⟩
  | breakOff {given : List Source} {front back : List Handle} {h : Handle} {disk : CatalogDisk} :
      History home start given ⟨front ++ h :: back, disk⟩ →
      History home start given ⟨front ++ h.breakOff :: back, disk⟩
  | drop {given : List Source} {front back : List Handle} {h : Handle} {disk : CatalogDisk} :
      History home start given ⟨front ++ h :: back, disk⟩ →
      History home start given ⟨front ++ back, disk⟩
  | reopen {given : List Source} {d : Deployment} {locations : Locations}
      {dataHome : Option String} {now : Calendar.Instant} {path : String} {place : Place}
      {handles : List Handle} {disk prepared next : CatalogDisk}
      {result : Except OpenFault (Handle × Schema.Opening)} :
      History home start given ⟨handles, disk⟩ →
      home = .file place → locations.filePath dataHome d = .ok path →
      isPrivatePath path = false →
      prepareDirectory disk path locations.createIfMissing = .ok prepared →
      prepared.locate path = .ok place →
      openFile d locations dataHome now disk = (result, next) →
      History home start given ⟨result.toOption.toList.map (·.1) ++ handles, next⟩

variable {d : Deployment} {home : Home} {start s : Session} {given : List Source} {l : Ledger}

theorem Keeps.operate {front back : List Handle} {h : Handle} {disk : CatalogDisk}
    (keeps : (⟨front ++ h :: back, disk⟩ : Session).Keeps home l) (op : Operation) :
    ∃ next, (⟨front ++ (h.perform (op.action disk) disk).2.1 :: back,
        (h.perform (op.action disk) disk).2.2⟩ : Session).Keeps home next ∧
      next.sources.entries =
        l.sources.entries ++ op.inserted (h.perform (op.action disk) disk).1 := by
  have holds := keeps.here.refreshed.1
  by_cases poisoned : (h.refreshed disk).isPoisoned
  · -- A poisoned handle does nothing, so it has inserted nothing.
    have none : op.inserted (h.perform (op.action disk) disk).1 = [] := by
      rw [Handle.perform, action_of_poisoned poisoned disk op]
      cases op <;> rfl
    exact ⟨l, keeps.perform (holds.advances_of_poisoned keeps.sound poisoned disk op),
      by rw [none, List.append_nil]⟩
  · obtain ⟨next, advances, answers⟩ := holds.advances keeps.sound disk op
    exact ⟨next, keeps.perform advances,
      keeps.sound.entries_of_answers (answers (Bool.eq_false_iff.2 poisoned))⟩

/-- The sources that are there later are those of before and after them the ones that have been
inserted since, in that order. -/
theorem History.keeps (history : History home start given s) (keeps : start.Keeps home l) :
    ∃ later, s.Keeps home later ∧ later.sources.entries = l.sources.entries ++ given := by
  induction history with
  | start => exact ⟨l, keeps, (List.append_nil _).symm⟩
  | operate op _ ih =>
    obtain ⟨middle, keeps, same⟩ := ih
    obtain ⟨next, keeps, more⟩ := keeps.operate op
    exact ⟨next, keeps, by rw [more, same, List.append_assoc]⟩
  -- Nothing but an operation changes the ledger.
  | @fail given front back h disk α task fault _ failed ih =>
    obtain ⟨l, keeps, same⟩ := ih
    have holds := keeps.here.refreshed.1
    exact ⟨l, keeps.perform (holds.advances_failing keeps.sound failed), same⟩
  | breakOff _ ih =>
    obtain ⟨l, keeps, same⟩ := ih
    exact ⟨l, keeps.breakOff, same⟩
  | drop _ ih =>
    obtain ⟨l, keeps, same⟩ := ih
    exact ⟨l, keeps.drop, same⟩
  | reopen _ here named shown made reached opened ih =>
    obtain ⟨l, keeps, same⟩ := ih
    subst here
    exact ⟨l, keeps.reopen named shown made reached opened, same⟩

theorem Keeps.findSource {front back : List Handle} {h : Handle} {disk : CatalogDisk}
    (keeps : (⟨front ++ h :: back, disk⟩ : Session).Keeps home l)
    (healthy : h.isPoisoned = false) (token : String) :
    (h.perform (Handle.findSource token) disk).1 =
      .ok (l.sources.entries.find? (·.authenticator == token)) := by
  obtain ⟨holds, healthy⟩ := keeps.healthy healthy
  exact congrArg Prod.fst (holds.findSource keeps.sound healthy token)

/-- The source that is found for an authenticator is the first that has been inserted with it,
if any has. It is the one with the least id of those that are listed for the authenticator, and
once there is one nothing that is done later makes it another. -/
theorem Fresh.findSource_first {front back : List Handle} {h : Handle} {disk : CatalogDisk}
    (fresh : Fresh d home start) (history : History home start given ⟨front ++ h :: back, disk⟩)
    (healthy : h.isPoisoned = false) (token : String) :
    (h.perform (Handle.findSource token) disk).1 =
        .ok (given.find? (·.authenticator == token)) ∧
      (∃ f found, Filter.eq "authenticator" (.text token) = .ok f ∧
        (h.perform (Handle.listSources (some f)) disk).1 = .ok found ∧
        ∀ s, given.find? (·.authenticator == token) = some s ↔
          s ∈ found ∧ ∀ other ∈ found, s.id ≤ other.id) ∧
      ∀ s, (h.perform (Handle.findSource token) disk).1 = .ok (some s) →
        ∀ more before after (g : Handle) written,
          History home ⟨front ++ h :: back, disk⟩ more ⟨before ++ g :: after, written⟩ →
          g.isPoisoned = false →
          (g.perform (Handle.findSource token) written).1 = .ok (some s) := by
  obtain ⟨now, keepsStart, -⟩ := fresh.keeps
  obtain ⟨l, keeps, rfl⟩ := history.keeps keepsStart
  have found := keeps.findSource healthy token
  refine ⟨found, ?_, fun s known more before after g written since sane => ?_⟩
  · obtain ⟨holds, healthy⟩ := keeps.healthy healthy
    obtain ⟨f, made, listed⟩ := holds.listSources_authenticator keeps.sound healthy token
    exact ⟨f, _, made, listed, fun s => keeps.sound.sources.find?_eq_some_iff⟩
  · -- What is inserted later stands behind the source that has been found.
    obtain ⟨later, keepsLater, same⟩ := since.keeps keeps
    rw [found] at known
    rw [keepsLater.findSource sane, same, List.find?_append, Except.ok.inj known]
    rfl

theorem History.of_private {h after : Handle} {disk : CatalogDisk}
    (history : History home start given ⟨[h], disk⟩) (hidden : isPrivatePath h.path)
    (op : Operation) {result : Except CatalogFault op.Result}
    (done : op.action disk h = (result, after)) (follows : h.Follows after) :
    History home start (given ++ op.inserted result) ⟨[after], disk⟩ := by
  have acted := @History.operate home start given [] [] h disk op history
  rw [perform_of_private hidden disk done follows] at acted
  exact acted

/-- Of two sources with one authenticator the first is found. -/
theorem findSource_first_duplicate :
    ∃ (start : Session) (h : Handle) (disk : CatalogDisk) (first second : Source),
      Fresh .librarian .memory start ∧
      History .memory start [first.kept 1, second.kept 2] ⟨[h], disk⟩ ∧
      second.authenticator = first.authenticator ∧
      (h.perform (Handle.findSource first.authenticator) disk).1 = .ok (some (first.kept 1)) := by
  let disk : CatalogDisk := ⟨[], []⟩
  let now : Calendar.Instant := ⟨0, 0, by decide, by decide, by decide, by decide⟩
  let first : Source := ⟨0, "A", "key", now⟩
  let second : Source := ⟨0, "B", "key", now⟩
  let new : Ledger := .new .librarian now
  let known : Ledger := new.addSource first
  let both : Ledger := known.addSource second
  let on (l : Ledger) (id : Int64) : Handle :=
    ⟨.librarian, memoryPath, ⟨l.database, true, id, true⟩, "", false⟩
  have holds (l : Ledger) (id : Int64) (own : Deployment.librarian = l.deployment) :
      (on l id).Holds l := ⟨own, rfl, rfl, rfl⟩
  have sound := Ledger.sound_new .librarian now
  have inserted : Handle.insertSource first .inOrder (on new 1) = (.ok 1, on known 1) :=
    (holds new 1 rfl).insertSource sound rfl first
  have again : Handle.insertSource second .inOrder (on known 1) = (.ok 2, on both 2) :=
    (holds known 1 rfl).insertSource (sound.addSource first (by decide)) rfl second
  have fresh : Fresh .librarian .memory ⟨[on new 1], disk⟩ := .memory rfl
  have history : History .memory ⟨[on new 1], disk⟩ [first.kept 1, second.kept 2]
      ⟨[on both 2], disk⟩ :=
    .of_private (.of_private .start rfl (.insertSource first) inserted ⟨rfl, rfl⟩) rfl
      (.insertSource second) again ⟨rfl, rfl⟩
  obtain ⟨found, -, -⟩ := @Fresh.findSource_first _ _ _ _ [] [] _ _ fresh history rfl "key"
  exact ⟨_, on both 2, disk, first, second, fresh, history, rfl, found⟩

end Session

end ObsCatalog
