import ObsCatalog.Proofs.Catalog.Gain
import ObsCatalog.Proofs.Catalog.Integrity

/-! Inserting observations.

An observation is kept if its source is there, its reals are numbers and there is an id for it.
Otherwise everything stays as it was. Whether an id is left where the database generates them
depends on all ids that were ever given, so on what the session has done so far.
-/

set_option autoImplicit false

namespace ObsCatalog

namespace Ledger

variable {l : Ledger} {o : Observation} {policy : IdPolicy} {draws : Sql.Draws}

theorem hasRow_source (l : Ledger) (id : Int64) :
    (l.table .source).hasRow id = (l.sources.get? id).isSome := l.sources.hasRow_table id

theorem hasRow_observation (l : Ledger) (id : Int64) :
    (l.table .observation).hasRow id = (l.observations.get? id).isSome :=
  l.observations.hasRow_table id

theorem Sound.generates_iff (sound : l.Sound)
    (room : l.deployment.idPolicy = .assigned →
      ¬ (l.table .observation).hasRow Int64.maxValue) :
    (∃ id, l.observationId o .generated draws = .ok id ∧ l.observations.get? id = none) ↔
      (l.deployment.idPolicy = .generated → l.last .observation ≠ Int64.maxValue) := by
  have next := sound.nextId draws
  unfold observationId
  cases given : l.observationTable.nextId draws with
  | ok id =>
    rw [given] at next
    exact ⟨fun _ => next.2, fun _ => ⟨id, rfl, next.1⟩⟩
  | error fault =>
    rw [given] at next
    constructor
    · rintro ⟨id, missing, -⟩
      cases missing
    · intro below
      cases own : l.deployment.idPolicy with
      | generated => exact absurd (next.2.1 own) (below own)
      | assigned =>
        rw [hasRow_observation] at room
        exact absurd (next.2.2 own) (room own)

/-- An observation for which an id can be had is kept if nothing else speaks against it. -/
theorem Sound.keeps_iff (sound : l.Sound) (named : ¬ (policy = .assigned ∧ o.id ≤ 0))
    (room : policy = .generated → l.deployment.idPolicy = .assigned →
      ¬ (l.table .observation).hasRow Int64.maxValue) :
    (∃ id after, l.insertObservation o policy draws = .ok (id, after)) ↔
      (l.table .source).hasRow o.sourceId ∧ o.julianDate.isNaN = false ∧
        o.lengthDays.isNaN = false ∧
        (policy = .assigned → ¬ (l.table .observation).hasRow o.id) ∧
        (policy = .generated → l.deployment.idPolicy = .generated →
          l.last .observation ≠ Int64.maxValue) := by
  -- Which ids can be given is where the policies differ; the other conditions are the same.
  have free : (∃ id, l.observationId o policy draws = .ok id ∧ l.observations.get? id = none) ↔
      (policy = .assigned → ¬ (l.table .observation).hasRow o.id) ∧
        (policy = .generated → l.deployment.idPolicy = .generated →
          l.last .observation ≠ Int64.maxValue) := by
    cases policy with
    | generated => simpa using sound.generates_iff (room rfl)
    | assigned =>
      have positive : 0 < o.id := Int64.not_le.1 fun missing => named ⟨rfl, missing⟩
      simp [observationId_assigned_iff, positive, hasRow_observation]
  rw [← free, hasRow_source]
  constructor
  · rintro ⟨id, after, kept⟩
    obtain ⟨given, accepted, -⟩ := insertObservation_eq_ok_iff.1 kept
    obtain ⟨julian, length, unused, known⟩ := refusal_eq_none_iff.1 accepted
    exact ⟨known, julian, length, id, given, unused⟩
  · rintro ⟨known, julian, length, id, given, unused⟩
    have accepted := refusal_eq_none_iff.2 ⟨julian, length, unused, known⟩
    exact ⟨id, _, insertObservation_eq_ok_iff.2 ⟨given, accepted, rfl⟩⟩

end Ledger

namespace Session

open Handle Store

variable {d : Deployment} {home : Home} {start s next : Session} {l : Ledger}

theorem Step.isSome_database? (step : Step home s next) (keeps : s.Keeps home l) :
    (s.database? home).isSome := by
  cases step with
  | act acts =>
    rw [keeps.database?_eq]
    rfl
  | drop =>
    rw [keeps.database?_eq]
    rfl
  | reopen here =>
    subst here
    rw [keeps.hasDatabase]
    rfl

theorem Keeps.hasRow_of_table (keeps : s.Keeps home l) (present : (s.database? home).isSome)
    {t : Table} {id : Int64} (has : (l.table t).hasRow id) : s.HasRow home t id := by
  obtain ⟨db, found⟩ := Option.isSome_iff_exists.1 present
  obtain rfl := keeps.eq_database found
  exact ⟨_, _, found, l.table_database t, has⟩

/-- The greatest id that has been given in a table since a run began was that of a row. -/
theorem Run.given {first : Ledger} (run : Run home start s) (keeps : start.Keeps home first) :
    ∃ l, s.Keeps home l ∧ first.Grows l ∧ ((s.database? home).isSome → ∀ t,
      l.last t = first.last t ∨ ∃ earlier, Run home start earlier ∧ Run home earlier s ∧
        earlier.HasRow home t (l.last t)) := by
  induction run with
  | refl => exact ⟨first, keeps, .refl first, fun _ _ => .inl rfl⟩
  | @tail s next past step ih =>
    obtain ⟨l, keeps, early, given⟩ := ih
    obtain ⟨later, keepsNext, moves⟩ := step.keeps keeps
    refine ⟨later, keepsNext, early.trans moves.toGrows, fun present t => ?_⟩
    rcases moves.given t with same | has
    · rw [same]
      refine (given (step.isSome_database? keeps) t).imp_right ?_
      rintro ⟨earlier, before, since, has⟩
      exact ⟨earlier, before, since.tail step, has⟩
    · exact .inr ⟨next, past.tail step, .refl, keepsNext.hasRow_of_table present has⟩

section Inserting

variable {front back : List Handle} {h after : Handle} {disk written : CatalogDisk}
  {o : Observation} {policy : IdPolicy} {draws : Sql.Draws} {result : Except CatalogFault Int64}

theorem Keeps.insertObservation_meets
    (keeps : (⟨front ++ h :: back, disk⟩ : Session).Keeps home l)
    (performed : h.perform (Handle.insertObservation o policy draws) disk =
      (result, after, written))
    (healthy : h.isPoisoned = false) :
    ∃ next, l.Meets (l.insertObservation o policy draws) result next ∧
      (⟨front ++ after :: back, written⟩ : Session).database? home = some next.database ∧
      after.lastInsertId =
        (l.insertObservation o policy draws).toOption.elim h.lastInsertId (·.1) := by
  obtain ⟨next, meets, serves, id⟩ := keeps.insertion_meets
    (fun g holds healthy => holds.insertObservation healthy o policy draws)
    (fun id next kept => ⟨keeps.sound.of_insertObservation kept,
      Ledger.moves_of_insertObservation kept⟩) healthy
  rw [performed] at meets serves id
  exact ⟨next, meets, keeps.database?_of_serves serves, id⟩

theorem Keeps.insertObservation_poisoned
    (keeps : (⟨front ++ h :: back, disk⟩ : Session).Keeps home l)
    (performed : h.perform (Handle.insertObservation o policy draws) disk =
      (result, after, written))
    (poisoned : h.isPoisoned = true) :
    result = .error Handle.poisoned ∧
      (⟨front ++ after :: back, written⟩ : Session).database? home = some l.database ∧
      after.lastInsertId = h.lastInsertId := by
  obtain ⟨holds, follows⟩ := keeps.here.refreshed
  have broken := follows.isPoisoned.trans poisoned
  have done := action_of_poisoned broken disk (.insertObservation o policy draws)
  have served := (keeps.here.perform
    (holds.advances_of_poisoned keeps.sound broken disk (.insertObservation o policy draws))).1
  rw [Handle.perform, done] at served
  have same : Handle.insertObservation o policy draws (h.refreshed disk) = _ := done
  rw [Handle.perform, same] at performed
  cases performed
  exact ⟨rfl, keeps.database?_of_serves served, h.lastInsertId_refreshed disk⟩

/-- An observation that is kept is one row more, under the id that is given for it. -/
theorem Keeps.gains_observation (keeps : (⟨front ++ h :: back, disk⟩ : Session).Keeps home l)
    {id : Int64}
    (performed : h.perform (Handle.insertObservation o policy draws) disk =
      (.ok id, after, written))
    (healthy : h.isPoisoned = false) :
    (policy = .assigned → id = o.id) ∧ after.lastInsertId = id ∧
      ∃ entry, IsEntry o id entry ∧ GainsRow .observation (Kept.row entry)
        ((⟨front ++ h :: back, disk⟩ : Session).database? home)
        ((⟨front ++ after :: back, written⟩ : Session).database? home) := by
  obtain ⟨next, meets, left, last⟩ := keeps.insertObservation_meets performed healthy
  rw [keeps.database?_eq, left]
  cases kept : l.insertObservation o policy draws with
  | error fault =>
    rw [kept] at meets
    cases meets.1
  | ok pair =>
    rw [kept] at meets last
    obtain ⟨same, rfl⟩ := meets
    cases same
    obtain ⟨given, accepted, rest⟩ := Ledger.insertObservation_eq_ok_iff.1 kept
    obtain ⟨julian, length, -⟩ := Ledger.refusal_eq_none_iff.1 accepted
    refine ⟨?_, last, o.kept pair.1, isEntry_kept _ julian length, ?_⟩
    · rintro rfl
      exact (Ledger.observationId_assigned_iff.1 given).2
    · rw [rest]
      exact Ledger.gains_addObservation accepted

/-- An observation that is not kept leaves no trace. -/
theorem Keeps.loses_observation (keeps : (⟨front ++ h :: back, disk⟩ : Session).Keeps home l)
    {fault : CatalogFault}
    (performed : h.perform (Handle.insertObservation o policy draws) disk =
      (.error fault, after, written)) :
    (⟨front ++ after :: back, written⟩ : Session).database? home =
        (⟨front ++ h :: back, disk⟩ : Session).database? home ∧
      after.lastInsertId = h.lastInsertId := by
  rw [keeps.database?_eq]
  by_cases poisoned : h.isPoisoned
  · exact (keeps.insertObservation_poisoned performed poisoned).2
  · obtain ⟨next, meets, left, last⟩ :=
      keeps.insertObservation_meets performed (Bool.eq_false_iff.2 poisoned)
    cases kept : l.insertObservation o policy draws with
    | ok pair =>
      rw [kept] at meets
      cases meets.1
    | error reason =>
      rw [kept] at meets last
      obtain ⟨-, rfl⟩ := meets
      exact ⟨left, last⟩

theorem Keeps.insertObservation_iff
    (keeps : (⟨front ++ h :: back, disk⟩ : Session).Keeps home l)
    (performed : h.perform (Handle.insertObservation o policy draws) disk =
      (result, after, written))
    (healthy : h.isPoisoned = false) :
    (result = .error .missingId ↔ policy = .assigned ∧ o.id ≤ 0) ∧
      (∀ fault, result = .error fault → fault = .missingId ∨ ∃ e, fault = .query e) ∧
      ((∃ id, result = .ok id) ↔
        ∃ id next, l.insertObservation o policy draws = .ok (id, next)) := by
  obtain ⟨next, meets, -⟩ := keeps.insertObservation_meets performed healthy
  cases kept : l.insertObservation o policy draws with
  | ok pair =>
    rw [kept] at meets
    obtain ⟨rfl, -⟩ := meets
    refine ⟨⟨nofun, ?_⟩, nofun, ⟨fun _ => ⟨_, _, rfl⟩, fun _ => ⟨_, rfl⟩⟩⟩
    rintro ⟨rfl, missing⟩
    have given := (Ledger.insertObservation_eq_ok_iff.1 kept).1
    exact absurd missing (Int64.not_le.2 (Ledger.observationId_assigned_iff.1 given).1)
  | error fault =>
    rw [kept] at meets
    obtain ⟨rfl, -⟩ := meets
    have faults := Ledger.of_insertObservation_error kept
    refine ⟨?_, ?_, ⟨nofun, ?_⟩⟩
    · rcases faults with ⟨own, missing, rfl⟩ | ⟨named, e, rfl⟩
      · exact ⟨fun _ => ⟨own, missing⟩, fun _ => rfl⟩
      · refine ⟨fun same => ?_, fun missing => absurd missing named⟩
        cases same
    · rintro _ ⟨⟩
      exact faults.imp (·.2.2) (·.2)
    · rintro ⟨id, next, ⟨⟩⟩

end Inserting

/-- What comes of inserting an observation at any time. It is asked for an id first; if it has
one, it is kept exactly if its source is there, its reals are numbers and its id is free, or an id
is left to be generated. Then there is one row more, and otherwise everything is as it was. -/
theorem Fresh.insertObservation_outcome {front back : List Handle} {h after : Handle}
    {disk written : CatalogDisk} {o : Observation} {policy : IdPolicy} {draws : Sql.Draws}
    {result : Except CatalogFault Int64} (fresh : Fresh d home start)
    (run : Run home start ⟨front ++ h :: back, disk⟩)
    (performed : h.perform (Handle.insertObservation o policy draws) disk =
      (result, after, written)) :
    let before : Session := ⟨front ++ h :: back, disk⟩
    let next : Session := ⟨front ++ after :: back, written⟩
    (h.isPoisoned = true → result = .error Handle.poisoned) ∧
    (h.isPoisoned = false →
      (result = .error .missingId ↔ policy = .assigned ∧ o.id ≤ 0) ∧
      (∀ fault, result = .error fault → fault = .missingId ∨ ∃ e, fault = .query e) ∧
      (¬ (policy = .assigned ∧ o.id ≤ 0) →
        (policy = .generated → d.idPolicy = .assigned →
          ¬ before.HasRow home .observation Int64.maxValue) →
        ((∃ id, result = .ok id) ↔
          before.HasRow home .source o.sourceId ∧ o.julianDate.isNaN = false ∧
          o.lengthDays.isNaN = false ∧
          (policy = .assigned → ¬ before.HasRow home .observation o.id) ∧
          (policy = .generated → d.idPolicy = .generated → ∀ earlier, Run home start earlier →
            Run home earlier before → ¬ earlier.HasRow home .observation Int64.maxValue)))) ∧
    (∀ id, result = .ok id →
      (policy = .assigned → id = o.id) ∧ after.lastInsertId = id ∧
      ∃ entry, IsEntry o id entry ∧ GainsRow .observation (Kept.row entry)
        (before.database? home) (next.database? home)) ∧
    (∀ fault, result = .error fault →
      next.database? home = before.database? home ∧ after.lastInsertId = h.lastInsertId) ∧
    (policy = .generated → ∀ id,
      h.perform (Handle.insertObservation { o with id } policy draws) disk =
        (result, after, written)) := by
  intro before next
  obtain ⟨now, keepsStart, -⟩ := fresh.keeps
  obtain ⟨l, keeps, grows, given⟩ := run.given keepsStart
  have healthy_of_ok {id : Int64} (done : result = .ok id) : h.isPoisoned = false := by
    by_contra broken
    have failed := (keeps.insertObservation_poisoned performed (Bool.not_eq_false _ ▸ broken)).1
    cases done.symm.trans failed
  refine ⟨fun poisoned => (keeps.insertObservation_poisoned performed poisoned).1,
    fun healthy => ?_, fun id done => ?_, fun fault failed => ?_, fun generated id => ?_⟩
  · obtain ⟨missing, faults, -⟩ := keeps.insertObservation_iff performed healthy
    refine ⟨missing, faults, fun named room => ?_⟩
    -- What the ledger of any way to this session says about ids that are left is the same.
    have decided {l : Ledger} (keeps : before.Keeps home l) (own : l.deployment = d) :
        (∃ id, result = .ok id) ↔ before.HasRow home .source o.sourceId ∧
          o.julianDate.isNaN = false ∧ o.lengthDays.isNaN = false ∧
          (policy = .assigned → ¬ before.HasRow home .observation o.id) ∧
          (policy = .generated → d.idPolicy = .generated →
            l.last .observation ≠ Int64.maxValue) := by
      rw [(keeps.insertObservation_iff performed healthy).2.2,
        keeps.sound.keeps_iff named (by rw [own, ← keeps.hasRow_iff]; exact room), own]
      simp only [before, keeps.hasRow_iff]
    have own : l.deployment = d := grows.deployment
    constructor
    · intro done
      obtain ⟨known, julian, length, free, -⟩ := (decided keeps own).1 done
      refine ⟨known, julian, length, free, fun generated sequenced earlier past since has => ?_⟩
      obtain ⟨first, keepsFirst, early⟩ := past.keeps keepsStart
      obtain ⟨last, keepsLast, late⟩ := since.keeps keepsFirst
      have below := ((decided keepsLast (early.trans late).deployment).1 done).2.2.2.2
        generated sequenced
      have reached := Int64.le_trans (keepsFirst.sound.le_last (keepsFirst.hasRow has))
        (late.last .observation)
      exact below (Int64.le_antisymm (Int64.le_maxValue _) reached)
    · rintro ⟨known, julian, length, free, never⟩
      refine (decided keeps own).2 ⟨known, julian, length, free, fun generated sequenced full => ?_⟩
      rcases given (by rw [keeps.database?_eq]; rfl) .observation with same | row
      · have none : (0 : Int64) = Int64.maxValue := same.symm.trans full
        exact absurd none (by decide)
      · obtain ⟨earlier, past, since, has⟩ := row
        exact never generated sequenced earlier past since (full ▸ has)
  · subst done
    exact keeps.gains_observation performed (healthy_of_ok rfl)
  · subst failed
    exact keeps.loses_observation performed
  · subst generated
    exact performed

/-- An observation of a source that is not there is given an id and leaves no trace. -/
theorem insertObservation_outcome_unknownSource :
    ∃ (start s : Session) (h : Handle) (o : Observation), Fresh .monitorControl .memory start ∧
      Run .memory start s ∧ s.handles = [h] ∧ s.HasRow .memory .source 1 ∧
      let (result, after, written) := h.perform (Handle.insertObservation o .generated) s.disk
      (∃ e, result = .error (.query e)) ∧
        (⟨[after], written⟩ : Session).database? .memory = s.database? .memory := by
  let disk : CatalogDisk := ⟨[], []⟩
  let s : Source := ⟨0, "A", "key", ⟨0, 0, by decide, by decide, by decide, by decide⟩⟩
  let o : Observation := ⟨0, 2, Real.ofInt 2459000, "X", Real.ofInt 1⟩
  let new : Ledger := .new .monitorControl s.createTime
  let known : Ledger := new.addSource s
  let on (l : Ledger) : Handle :=
    ⟨.monitorControl, memoryPath, ⟨l.database, true, 1, true⟩, "", false⟩
  have source : Handle.insertSource s .inOrder (on new) = (.ok 1, on known) :=
    Holds.insertSource ⟨rfl, rfl, rfl, rfl⟩ (Ledger.sound_new _ _) rfl s
  have fresh : Fresh .monitorControl .memory ⟨[on new], disk⟩ := .memory rfl
  have run : Run .memory ⟨[on new], disk⟩ ⟨[on known], disk⟩ :=
    .single (.of_private (.operate (.insertSource s)) rfl source ⟨rfl, rfl⟩)
  have unknown : ¬ (⟨[on known], disk⟩ : Session).HasRow .memory .source 2 := by
    rintro ⟨db, table, found, named, has⟩
    cases found
    cases named
    exact absurd has (by decide)
  obtain ⟨result, after, written, performed⟩ : ∃ result after written,
      (on known).perform (Handle.insertObservation o .generated) disk = (result, after, written) :=
    ⟨_, _, _, rfl⟩
  have outcome := @Fresh.insertObservation_outcome _ _ _ [] [] _ _ _ _ _ _ _ _ fresh run performed
  obtain ⟨-, decided, -, lost, -⟩ := outcome
  obtain ⟨missing, faults, kept⟩ := decided rfl
  refine ⟨_, _, on known, o, fresh, run, rfl, ⟨_, _, rfl, rfl, rfl⟩, ?_⟩
  rw [performed]
  cases result with
  | ok id => exact absurd ((kept nofun nofun).1 ⟨id, rfl⟩).1 unknown
  | error fault =>
    refine ⟨?_, (lost fault rfl).1⟩
    rcases faults fault rfl with rfl | ⟨e, rfl⟩
    · cases (missing.1 rfl).1
    · exact ⟨e, rfl⟩

end Session

end ObsCatalog
