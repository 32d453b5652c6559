import ObsCatalog.Proofs.Catalog.Session

/-! Generated ids.

A shelf remembers the greatest id that it has ever given, and no step of a session takes
that back. An id that is generated later is one more, so it is greater than the id of any
row that was ever there, and once the greatest integer has been an id none is generated.
-/

set_option autoImplicit false

namespace ObsCatalog

open Sql (Connection)

namespace Ledger

variable {l : Ledger}

theorem Sound.le_last (sound : l.Sound) {t : Table} {id : Int64} (has : (l.table t).hasRow id) :
    id ≤ l.last t := by
  obtain ⟨r, member, rfl⟩ := Sql.Table.hasRow_iff.1 has
  cases t with
  | source =>
    obtain ⟨s, entry, rfl⟩ := List.mem_map.1 member
    exact sound.sources.le_last s entry
  | observation =>
    obtain ⟨o, entry, rfl⟩ := List.mem_map.1 member
    exact sound.observations.le_last o entry

theorem hasRow_addRow (t : Sql.Table) (r : Sql.StoredRow) : (t.addRow r).hasRow r.id :=
  Sql.Table.hasRow_iff.2 ⟨r, Sql.Table.mem_insertOrdered.2 (.inl rfl), rfl⟩

theorem last_lt_of_insertSource {s : Source} {id : Int64} {after : Ledger}
    (kept : l.insertSource s = .ok (id, after)) :
    l.last .source < id ∧ (after.table .source).hasRow id := by
  unfold insertSource at kept
  split at kept
  · cases kept
  · next below =>
    cases kept
    refine ⟨Sql.Table.lt_add_one below, ?_⟩
    show ((l.sources.add _).table Schema.sourceTable).hasRow _
    rw [Shelf.table_add]
    exact hasRow_addRow _ (Kept.row (s.kept (l.sources.last + 1)))

theorem Sound.last_lt_of_insertObservation (sound : l.Sound)
    (policy : l.deployment.idPolicy = .generated) {o : Observation} {draws : Sql.Draws}
    {id : Int64} {after : Ledger}
    (kept : l.insertObservation o .generated draws = .ok (id, after)) :
    l.last .observation < id ∧ (after.table .observation).hasRow id := by
  obtain ⟨given, -, rfl⟩ := insertObservation_eq_ok_iff.1 kept
  simp only [observationId, sound.nextId_observation policy] at given
  split at given
  · cases given
  · next below =>
    cases given
    refine ⟨Sql.Table.lt_add_one below, ?_⟩
    show ((l.observations.add _).table (Schema.observationTable _)).hasRow _
    rw [Shelf.table_add]
    exact hasRow_addRow _ (Kept.row (o.kept (l.observations.last + 1)))

end Ledger

/-- Insertions for which the database of a deployment generates the id. -/
inductive Generated (d : Deployment) : Table → Type where
  | source (s : Source) (draws : Sql.Draws) : Generated d .source
  | observation (o : Observation) (generates : d.idPolicy = .generated) (draws : Sql.Draws) :
    Generated d .observation

namespace Generated

variable {d : Deployment} {t : Table} {l after : Ledger} {id : Int64}

def action : Generated d t → Action Int64
  | .source s draws => Handle.insertSource s draws
  | .observation o _ draws => Handle.insertObservation o .generated draws

def outcome (l : Ledger) : Generated d t → Except CatalogFault (Int64 × Ledger)
  | .source s _ => l.insertSource s
  | .observation o _ draws => l.insertObservation o .generated draws

theorem action_eq (insertion : Generated d t) {h : Handle} (holds : h.Holds l) (sound : l.Sound)
    (healthy : h.isPoisoned = false) : insertion.action h = h.insertion (insertion.outcome l) := by
  cases insertion with
  | source s draws => exact holds.insertSource sound healthy s draws
  | observation o _ draws => exact holds.insertObservation healthy o .generated draws

theorem action_of_poisoned (insertion : Generated d t) {h : Handle}
    (poisoned : h.isPoisoned = true) : insertion.action h = (.error Handle.poisoned, h) := by
  cases insertion with
  | source s => exact Handle.run_of_poisoned poisoned _
  | observation o => exact Handle.run_of_poisoned poisoned _

theorem sound_moves {insertion : Generated d t} (sound : l.Sound)
    (kept : insertion.outcome l = .ok (id, after)) : after.Sound ∧ l.Moves after := by
  cases insertion with
  | source s => exact ⟨sound.of_insertSource kept, Ledger.moves_of_insertSource kept⟩
  | observation o =>
    exact ⟨sound.of_insertObservation kept, Ledger.moves_of_insertObservation kept⟩

theorem last_lt {insertion : Generated d t} (sound : l.Sound) (own : l.deployment = d)
    (kept : insertion.outcome l = .ok (id, after)) :
    l.last t < id ∧ (after.table t).hasRow id := by
  cases insertion with
  | source s => exact Ledger.last_lt_of_insertSource kept
  | observation o generates draws => exact sound.last_lt_of_insertObservation (own ▸ generates) kept

theorem outcome_of_full (insertion : Generated d t) (sound : l.Sound) (own : l.deployment = d)
    (full : l.last t = Int64.maxValue) : insertion.outcome l = .error (.query .full) := by
  cases insertion with
  | source s => exact if_pos full
  | observation o generates draws =>
    have next := sound.nextId_observation (own ▸ generates) draws
    have full : l.observations.last = Int64.maxValue := full
    simp only [outcome, Ledger.insertObservation, Ledger.observationId, next, if_pos full]
    rfl

end Generated

namespace Session

open Handle

variable {d : Deployment} {home : Home} {s : Session} {l : Ledger}

def database? (s : Session) : Home → Option Sql.Database
  | .memory => s.handles.head?.map (·.connection.database)
  | .file place =>
    match s.disk.get? place with
    | some (.database db) => some db
    | _ => none

def HasRow (s : Session) (home : Home) (t : Table) (id : Int64) : Prop :=
  ∃ db table, s.database? home = some db ∧ db.table t.name = .ok table ∧ table.hasRow id

theorem Keeps.eq_database (keeps : s.Keeps home l) {db : Sql.Database}
    (found : s.database? home = some db) : db = l.database := by
  cases home with
  | memory =>
    obtain ⟨h, first, rfl⟩ := Option.map_eq_some_iff.1 found
    exact (keeps.serves h (List.mem_of_head? first)).2.database
  | file place =>
    have stored : s.disk.get? place = some (.database l.database) := keeps.stored
    simp only [database?, stored, Option.some.injEq] at found
    exact found.symm

theorem Keeps.hasRow (keeps : s.Keeps home l) {t : Table} {id : Int64}
    (has : s.HasRow home t id) : (l.table t).hasRow id := by
  obtain ⟨db, table, found, named, has⟩ := has
  rw [keeps.eq_database found, l.table_database] at named
  cases named
  exact has

section Generating

variable {front back : List Handle} {h after : Handle} {disk written : CatalogDisk} {t : Table}
  {id : Int64} {next : Ledger}

/-- A handle that has come after one of a session is left with the database that it serves. -/
theorem Keeps.database?_of_serves (keeps : (⟨front ++ h :: back, disk⟩ : Session).Keeps home l)
    (serves : after.Serves written next home) :
    (⟨front ++ after :: back, written⟩ : Session).database? home = some next.database := by
  cases home with
  | memory =>
    rw [keeps.alone.1]
    exact congrArg some serves.2.database
  | file place => simp only [database?, serves.2.2.1]

theorem Keeps.database?_eq (keeps : (⟨front ++ h :: back, disk⟩ : Session).Keeps home l) :
    (⟨front ++ h :: back, disk⟩ : Session).database? home = some l.database :=
  keeps.database?_of_serves keeps.here

theorem Keeps.hasRow_of_serves (keeps : (⟨front ++ h :: back, disk⟩ : Session).Keeps home l)
    (serves : after.Serves written next home) (has : (next.table t).hasRow id) :
    (⟨front ++ after :: back, written⟩ : Session).HasRow home t id :=
  ⟨next.database, next.table t, keeps.database?_of_serves serves, next.table_database t, has⟩

theorem Keeps.hasRow_iff (keeps : (⟨front ++ h :: back, disk⟩ : Session).Keeps home l) :
    (⟨front ++ h :: back, disk⟩ : Session).HasRow home t id ↔ (l.table t).hasRow id :=
  ⟨keeps.hasRow, keeps.hasRow_of_serves keeps.here⟩

/-- An insertion through a healthy handle of a session comes about as in the ledger, and the
handle is left with the ledger that comes of it. -/
theorem Keeps.insertion_meets (keeps : (⟨front ++ h :: back, disk⟩ : Session).Keeps home l)
    {action : Action Int64} {outcome : Except CatalogFault (Int64 × Ledger)}
    (inserts : ∀ g : Handle, g.Holds l → g.isPoisoned = false → action g = g.insertion outcome)
    (kept : ∀ id next, outcome = .ok (id, next) → next.Sound ∧ l.Moves next)
    (healthy : h.isPoisoned = false) :
    ∃ next, l.Meets outcome (h.perform action disk).1 next ∧
      (h.perform action disk).2.1.Serves (h.perform action disk).2.2 next home ∧
      (h.perform action disk).2.1.lastInsertId = outcome.toOption.elim h.lastInsertId (·.1) := by
  obtain ⟨holds, healthy⟩ := keeps.healthy healthy
  obtain ⟨next, sound, moves, meets, holdsNext, followsNext⟩ := holds.inserts keeps.sound kept
  have inserted := inserts _ holds healthy
  rw [← inserted] at meets holdsNext followsNext
  refine ⟨next, meets, (keeps.here.perform ⟨sound, moves, holdsNext, followsNext⟩).1, ?_⟩
  show (action (h.refreshed disk)).2.lastInsertId = _
  rw [inserted]
  cases outcome with
  | error fault => exact h.lastInsertId_refreshed disk
  | ok pair => rfl

/-- An insertion that succeeds through a handle of a session came about in the ledger, and the
handle is left with the ledger that came of it. -/
theorem Keeps.insertion (keeps : (⟨front ++ h :: back, disk⟩ : Session).Keeps home l)
    {action : Action Int64} {outcome : Except CatalogFault (Int64 × Ledger)}
    (poisoned : ∀ g : Handle, g.isPoisoned = true → action g = (.error Handle.poisoned, g))
    (inserts : ∀ g : Handle, g.Holds l → g.isPoisoned = false → action g = g.insertion outcome)
    (kept : ∀ id next, outcome = .ok (id, next) → next.Sound ∧ l.Moves next)
    (performed : h.perform action disk = (.ok id, after, written)) :
    ∃ next, outcome = .ok (id, next) ∧ after.Serves written next home := by
  have healthy : h.isPoisoned = false := by
    by_contra broken
    have known := keeps.here.refreshed.2.isPoisoned.trans (Bool.not_eq_false _ ▸ broken)
    rw [Handle.perform, poisoned _ known] at performed
    cases performed
  obtain ⟨next, meets, serves, -⟩ := keeps.insertion_meets inserts kept healthy
  rw [performed] at meets serves
  cases outcome with
  | error fault => cases meets.1
  | ok pair =>
    obtain ⟨same, rfl⟩ := meets
    cases same
    exact ⟨pair.2, rfl, serves⟩

/-- An id that a session generates is above all that its ledger has given. -/
theorem Keeps.last_lt (keeps : (⟨front ++ h :: back, disk⟩ : Session).Keeps home l)
    (own : l.deployment = d) {insertion : Generated d t}
    (performed : h.perform insertion.action disk = (.ok id, after, written)) :
    l.last t < id ∧ (⟨front ++ after :: back, written⟩ : Session).HasRow home t id := by
  obtain ⟨next, outcome, serves⟩ := keeps.insertion
    (fun _ => insertion.action_of_poisoned)
    (fun _ holds => insertion.action_eq holds keeps.sound)
    (fun _ _ => insertion.sound_moves keeps.sound) performed
  obtain ⟨below, stored⟩ := insertion.last_lt keeps.sound own outcome
  exact ⟨below, keeps.hasRow_of_serves serves stored⟩

theorem Keeps.error_of_full (keeps : (⟨front ++ h :: back, disk⟩ : Session).Keeps home l)
    (own : l.deployment = d) (insertion : Generated d t) (full : l.last t = Int64.maxValue) :
    (h.perform insertion.action disk).1 =
      .error (if h.isPoisoned then Handle.poisoned else .query .full) := by
  by_cases poisoned : h.isPoisoned
  · have follows := keeps.here.refreshed.2
    rw [Handle.perform, insertion.action_of_poisoned (follows.isPoisoned.trans poisoned),
      if_pos poisoned]
  · obtain ⟨holds, healthy⟩ := keeps.healthy (Bool.eq_false_iff.2 poisoned)
    rw [Handle.perform, insertion.action_eq holds keeps.sound healthy,
      insertion.outcome_of_full keeps.sound own full, if_neg poisoned]
    rfl

end Generating

theorem perform_of_private {h after : Handle} (hidden : isPrivatePath h.path) (disk : CatalogDisk)
    {α : Type} {action : Action α} {result : Except CatalogFault α}
    (done : action h = (result, after)) (follows : h.Follows after) :
    h.perform action disk = (result, after, disk) := by
  have refreshed : h.refreshed disk = h := by rw [Handle.refreshed, if_pos hidden]
  have settled : after.settled disk = disk := by
    rw [Handle.settled, if_pos (.inl (follows.path ▸ hidden))]
  rw [Handle.perform, refreshed, done]
  simp only [settled]

theorem Step.of_private {h after : Handle} {disk : CatalogDisk} {α : Type} {action : Action α}
    {result : Except CatalogFault α}
    (acts : Acts h disk (h.perform action disk).2.1 (h.perform action disk).2.2)
    (hidden : isPrivatePath h.path) (done : action h = (result, after))
    (follows : h.Follows after) : Step home ⟨[h], disk⟩ ⟨[after], disk⟩ := by
  rw [perform_of_private hidden disk done follows] at acts
  exact @Step.act home [] [] h after disk disk acts

/-- An id that is generated is greater than any that has been in the table since it was made,
whatever has come of those rows, and becomes that of a row. After the greatest integer no
id is generated. -/
theorem Fresh.generated_above {start earlier : Session} {front back : List Handle} {h : Handle}
    {disk : CatalogDisk} {t : Table} {id : Int64} (fresh : Fresh d home start)
    (past : Run home start earlier) (since : Run home earlier ⟨front ++ h :: back, disk⟩)
    (has : earlier.HasRow home t id) (insertion : Generated d t) :
    (∀ new after written, h.perform insertion.action disk = (.ok new, after, written) →
      id < new ∧ (⟨front ++ after :: back, written⟩ : Session).HasRow home t new) ∧
    (id = Int64.maxValue → (h.perform insertion.action disk).1 =
      .error (if h.isPoisoned then Handle.poisoned else .query .full)) := by
  obtain ⟨now, keeps, -⟩ := fresh.keeps
  obtain ⟨before, keepsBefore, growsBefore⟩ := past.keeps keeps
  obtain ⟨l, keepsNow, grows⟩ := since.keeps keepsBefore
  have own : l.deployment = d := (growsBefore.trans grows).deployment
  -- The row may be gone by now, but what the sequence was at the time is only ever exceeded.
  have given : id ≤ l.last t :=
    Int64.le_trans (keepsBefore.sound.le_last (keepsBefore.hasRow has)) (grows.last t)
  refine ⟨fun new after written performed => ?_, fun greatest => ?_⟩
  · obtain ⟨below, stored⟩ := keepsNow.last_lt own performed
    exact ⟨Int64.lt_of_le_of_lt given below, stored⟩
  · have full : l.last t = Int64.maxValue :=
      Int64.le_antisymm (Int64.le_maxValue _) (greatest ▸ given)
    exact keepsNow.error_of_full own insertion full

/-- An observation with an id of its own is kept and deleted again, and the next one gets a
greater id. -/
theorem generated_above_deleted :
    ∃ (start earlier : Session) (h : Handle) (disk : CatalogDisk) (o : Observation)
      (new : Int64), Fresh .monitorControl .memory start ∧ Run .memory start earlier ∧
      Run .memory earlier ⟨[h], disk⟩ ∧ earlier.HasRow .memory .observation 7 ∧
      (h.perform (Handle.insertObservation o .generated) disk).1 = .ok new ∧ 7 < new := by
  let disk : CatalogDisk := ⟨[], []⟩
  let s : Source := ⟨0, "A", "key", ⟨0, 0, by decide, by decide, by decide, by decide⟩⟩
  let o : Observation := ⟨7, 1, Real.ofInt 2459000, "X", Real.ofInt 1⟩
  let new : Ledger := .new .monitorControl s.createTime
  let known : Ledger := new.addSource s
  let full : Ledger := known.addObservation o 7
  let bare : Ledger := full.remove 7 .observation
  let on (l : Ledger) (id : Int64) : Handle :=
    ⟨.monitorControl, memoryPath, ⟨l.database, true, id, true⟩, "", false⟩
  have holds (l : Ledger) (id : Int64) (own : Deployment.monitorControl = l.deployment) :
      (on l id).Holds l := ⟨own, rfl, rfl, rfl⟩
  have source : Handle.insertSource s .inOrder (on new 1) = (.ok 1, on known 1) :=
    (holds new 1 rfl).insertSource (Ledger.sound_new _ _) rfl s
  have assigned : Handle.insertObservation o .assigned .inOrder (on known 1) =
      (.ok 7, on full 7) := by
    have kept : known.insertObservation o .assigned = .ok (7, full) :=
      Ledger.insertObservation_eq_ok_iff.2 ⟨rfl,
        Ledger.refusal_eq_none_iff.2 ⟨by decide +kernel, by decide +kernel, rfl, rfl⟩, rfl⟩
    rw [(holds known 1 rfl).insertObservation rfl o .assigned, kept]
    rfl
  have deleted : run (Connection.delete Table.observation.name 7) (on full 7) =
      (.ok 1, on bare 7) := (holds full 7 rfl).delete rfl .observation 7
  have generated : Handle.insertObservation o .generated .inOrder (on bare 7) =
      (.ok 8, on (bare.addObservation o 8) 8) := by
    have kept : bare.insertObservation o .generated = .ok (8, bare.addObservation o 8) :=
      Ledger.insertObservation_eq_ok_iff.2 ⟨rfl,
        Ledger.refusal_eq_none_iff.2 ⟨by decide +kernel, by decide +kernel, rfl, rfl⟩, rfl⟩
    rw [(holds bare 7 rfl).insertObservation rfl o .generated, kept]
    rfl
  have fresh : Fresh .monitorControl .memory ⟨[on new 1], disk⟩ := .memory rfl
  have past : Run .memory ⟨[on new 1], disk⟩ ⟨[on full 7], disk⟩ :=
    .tail (.single (.of_private (.operate (.insertSource s)) rfl source ⟨rfl, rfl⟩))
      (.of_private (.operate (.insertObservation o .assigned)) rfl assigned ⟨rfl, rfl⟩)
  have since : Run .memory ⟨[on full 7], disk⟩ ⟨[on bare 7], disk⟩ :=
    .single (.of_private (.delete .observation 7) rfl deleted ⟨rfl, rfl⟩)
  have has : (⟨[on full 7], disk⟩ : Session).HasRow .memory .observation 7 :=
    ⟨full.database, full.observationTable, rfl, rfl, rfl⟩
  have performed := perform_of_private rfl disk generated ⟨rfl, rfl⟩
  have above := @Fresh.generated_above _ _ _ _ [] [] _ _ _ _ fresh past since has
    (.observation o rfl .inOrder)
  exact ⟨_, _, _, _, o, 8, fresh, past, since, has, congrArg Prod.fst performed,
    (above.1 _ _ _ performed).1⟩

end Session

end ObsCatalog
