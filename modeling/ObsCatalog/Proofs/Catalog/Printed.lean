import ObsCatalog.Proofs.Catalog.Insertion
import ObsCatalog.Proofs.Record.Printed

/-! Stored observations read back from what is printed of them.

An observation with finite reals is returned as long as its row is stored, and both texts of it are
read as an observation with the same id, source and polarization. A database takes infinite reals
too, but JSON has no number for them, so they are printed as null and not read back.
-/

set_option autoImplicit false

namespace ObsCatalog

theorem Real.isFinite_plainZero {x : Float} (finite : x.isFinite) : (plainZero x).isFinite := by
  unfold plainZero
  split
  · decide +kernel
  · exact finite

theorem Observation.eq_of_row {a b : Observation} (same : Kept.row a = Kept.row b) : a = b := by
  obtain ⟨id, sourceId, julianDate, polarization, lengthDays⟩ := a
  obtain ⟨otherId, otherSource, otherDate, otherPolarization, otherLength⟩ := b
  simp only [Kept.row, Kept.key, Kept.cells] at same
  cases same
  rfl

namespace Session

open Handle

variable {d : Deployment} {home : Home} {start s : Session} {l : Ledger}

theorem Keeps.getObservation (keeps : s.Keeps home l) {g : Handle} (member : g ∈ s.handles)
    (healthy : g.isPoisoned = false) (id : Int64) :
    (g.perform (Handle.getObservation id) s.disk).1 = .ok (l.observations.get? id) := by
  obtain ⟨holds, follows⟩ := (keeps.serves g member).refreshed
  show (Handle.getObservation id (g.refreshed s.disk)).1 = _
  rw [holds.getObservation (follows.isPoisoned.trans healthy)]

theorem Keeps.getObservation_of_row (keeps : s.Keeps home l) {r : Observation}
    (stored : Kept.row r ∈ rowsOf (s.database? home) Table.observation.name) {g : Handle}
    (member : g ∈ s.handles) (healthy : g.isPoisoned = false) :
    (g.perform (Handle.getObservation r.id) s.disk).1 = .ok (some r) := by
  rw [keeps.getObservation member healthy]
  cases found : s.database? home with
  | none =>
    rw [found] at stored
    cases stored
  | some db =>
    rw [found, keeps.eq_database found] at stored
    obtain ⟨entry, entered, same⟩ := List.mem_map.1 (show
      Kept.row r ∈ l.observations.entries.map Kept.row from stored)
    cases Observation.eq_of_row same
    exact congrArg Except.ok (keeps.sound.observations.get?_eq_some_iff.2 ⟨entered, rfl⟩)

/-- An observation of a known source can be inserted, infinite reals or not. -/
theorem exists_inserted {o : Observation} (positive : 0 < o.id) (known : o.sourceId = 1)
    (julian : o.julianDate.isNaN = false) (days : o.lengthDays.isNaN = false) :
    ∃ (start : Session) (h after : Handle) (disk : CatalogDisk),
      Fresh .monitorControl .memory start ∧ Run .memory start ⟨[h], disk⟩ ∧
      h.perform (Handle.insertObservation o .assigned) disk = (.ok o.id, after, disk) := by
  let disk : CatalogDisk := ⟨[], []⟩
  let s : Source := ⟨0, "A", "key", ⟨0, 0, by decide, by decide, by decide, by decide⟩⟩
  let new : Ledger := .new .monitorControl s.createTime
  let full : Ledger := new.addSource s
  let on (l : Ledger) (id : Int64) : Handle :=
    ⟨.monitorControl, memoryPath, ⟨l.database, true, id, true⟩, "", false⟩
  have source : Handle.insertSource s .inOrder (on new 1) = (.ok 1, on full 1) :=
    Holds.insertSource ⟨rfl, rfl, rfl, rfl⟩ (Ledger.sound_new _ _) rfl s
  have kept : full.insertObservation o .assigned = .ok (o.id, full.addObservation o o.id) :=
    Ledger.insertObservation_eq_ok_iff.2 ⟨Ledger.observationId_assigned_iff.2 ⟨positive, rfl⟩,
      Ledger.refusal_eq_none_iff.2 ⟨julian, days, rfl, known ▸ rfl⟩, rfl⟩
  have inserted : Handle.insertObservation o .assigned .inOrder (on full 1) =
      (.ok o.id, on (full.addObservation o o.id) o.id) := by
    rw [Holds.insertObservation ⟨rfl, rfl, rfl, rfl⟩ rfl o .assigned, kept]
    rfl
  exact ⟨⟨[on new 1], disk⟩, on full 1, _, disk, .memory rfl,
    .single (.of_private (.operate (.insertSource s)) rfl source ⟨rfl, rfl⟩),
    perform_of_private rfl disk inserted ⟨rfl, rfl⟩⟩

section Inserting

variable {front back : List Handle} {h after : Handle} {disk written : CatalogDisk}
  {o : Observation} {policy : IdPolicy} {draws : Sql.Draws} {id : Int64}

/-- An observation that is kept is stored under the id that is given for it, as the ledger has it. -/
theorem Keeps.stored_observation (keeps : (⟨front ++ h :: back, disk⟩ : Session).Keeps home l)
    (performed : h.perform (Handle.insertObservation o policy draws) disk =
      (.ok id, after, written)) :
    after.isPoisoned = false ∧
      Kept.row (o.kept id) ∈ rowsOf ((⟨front ++ after :: back, written⟩ : Session).database? home)
        Table.observation.name := by
  have healthy : h.isPoisoned = false := by
    by_contra broken
    cases (keeps.insertObservation_poisoned performed (Bool.not_eq_false _ ▸ broken)).1
  obtain ⟨next, advances, -⟩ :=
    keeps.here.refreshed.1.advances keeps.sound disk (.insertObservation o policy draws)
  have follows : h.Follows (h.perform (Handle.insertObservation o policy draws) disk).2.1 :=
    (keeps.here.perform advances).2
  obtain ⟨ledger, meets, left, -⟩ := keeps.insertObservation_meets performed healthy
  rw [performed] at follows
  refine ⟨follows.isPoisoned.trans healthy, ?_⟩
  cases kept : l.insertObservation o policy draws with
  | error fault =>
    rw [kept] at meets
    cases meets.1
  | ok pair =>
    rw [kept] at meets
    obtain ⟨same, rfl⟩ := meets
    cases same
    rw [left, (Ledger.insertObservation_eq_ok_iff.1 kept).2.2]
    exact List.mem_map_of_mem ((l.observations.entries_add _).mem_iff.2 List.mem_cons_self)

theorem Run.inserted (run : Run home start ⟨front ++ h :: back, disk⟩)
    {result : Except CatalogFault Int64}
    (performed : h.perform (Handle.insertObservation o policy draws) disk =
      (result, after, written)) :
    Run home start ⟨front ++ after :: back, written⟩ := by
  have acted := run.tail (.act (.operate (.insertObservation o policy draws)))
  have same : h.perform ((Operation.insertObservation o policy draws).action disk) disk =
      (result, after, written) := performed
  rwa [same] at acted

/-- A stored observation can be read back from what is printed of it, if its reals are finite. As
long as its row is stored it is returned through every handle that is not poisoned, and both texts
of it are read as an observation with the same id, source and polarization. -/
theorem Fresh.printed_observation (fresh : Fresh d home start)
    (run : Run home start ⟨front ++ h :: back, disk⟩)
    (performed : h.perform (Handle.insertObservation o policy draws) disk =
      (.ok id, after, written))
    (julian : o.julianDate.isFinite) (days : o.lengthDays.isFinite) :
    let next : Session := ⟨front ++ after :: back, written⟩
    ∃ r : Observation, r.id = id ∧ r.sourceId = o.sourceId ∧ r.polarization = o.polarization ∧
      after.isPoisoned = false ∧
      Kept.row r ∈ rowsOf (next.database? home) Table.observation.name ∧
      (∀ later : Session, Run home next later →
        Kept.row r ∈ rowsOf (later.database? home) Table.observation.name →
        ∀ g ∈ later.handles, g.isPoisoned = false →
          (g.perform (Handle.getObservation id) later.disk).1 = .ok (some r)) ∧
      r.ReadsBack r.json.compact ∧ r.ReadsBack r.json.pretty := by
  intro next
  obtain ⟨now, keepsStart, -⟩ := fresh.keeps
  obtain ⟨l, keeps, -⟩ := run.keeps keepsStart
  obtain ⟨healthy, stored⟩ := keeps.stored_observation performed
  have date : (o.kept id).julianDate.isFinite := Real.isFinite_plainZero julian
  have length : (o.kept id).lengthDays.isFinite := Real.isFinite_plainZero days
  refine ⟨o.kept id, rfl, rfl, rfl, healthy, stored, fun later since kept g member able => ?_,
    Observation.readsBack_isDocument date length (Json.isDocument_compact _),
    Observation.readsBack_isDocument date length (Json.isDocument_pretty _)⟩
  -- The insertion is one more step of the run, and what comes later goes on from there.
  obtain ⟨last, keepsLater, -⟩ := Run.keeps ((run.inserted performed).trans since) keepsStart
  exact keepsLater.getObservation_of_row kept member able

end Inserting

/-- The greatest double, the negative one nearest to zero, and a text with escapes. -/
theorem printed_observation_extremes :
    ∃ (start : Session) (h after : Handle) (disk : CatalogDisk) (o r : Observation),
      o.julianDate.isFinite ∧ o.lengthDays.isFinite ∧ Fresh .monitorControl .memory start ∧
      Run .memory start ⟨[h], disk⟩ ∧
      h.perform (Handle.insertObservation o .assigned) disk = (.ok 7, after, disk) ∧
      (after.perform (Handle.getObservation 7) disk).1 = .ok (some r) ∧
      r.polarization = "\"x\ny" ∧ r.ReadsBack r.json.compact ∧ r.ReadsBack r.json.pretty := by
  let o : Observation :=
    ⟨7, 1, Float.ofBits 0x7FEFFFFFFFFFFFFF, "\"x\ny", Float.ofBits 0x8000000000000001⟩
  have julian : o.julianDate.isFinite := by decide +kernel
  have days : o.lengthDays.isFinite := by decide +kernel
  obtain ⟨start, h, after, disk, fresh, run, performed⟩ := exists_inserted (o := o) (by decide) rfl
    (by decide +kernel) (by decide +kernel)
  have alone : Run .memory start ⟨[] ++ h :: [], disk⟩ := run
  obtain ⟨r, id, -, polarization, healthy, stored, found, compact, pretty⟩ :=
    fresh.printed_observation alone performed julian days
  exact ⟨start, h, after, disk, o, r, julian, days, fresh, run, performed,
    found _ .refl stored after List.mem_cons_self healthy, polarization, compact, pretty⟩

/-- An infinite real is stored, and printed as null, which is not read as a real. -/
theorem printed_observation_infinite :
    ∃ (start : Session) (h after : Handle) (disk : CatalogDisk) (o r : Observation),
      Fresh .monitorControl .memory start ∧ Run .memory start ⟨[h], disk⟩ ∧
      h.perform (Handle.insertObservation o .assigned) disk = (.ok 1, after, disk) ∧
      (after.perform (Handle.getObservation 1) disk).1 = .ok (some r) ∧
      ¬ r.ReadsBack r.json.compact ∧ ¬ r.ReadsBack r.json.pretty := by
  let o : Observation := ⟨1, 1, Real.infinity, "xx", Real.ofInt 1⟩
  have refused : ∀ text ∈ [(o.kept 1).json.compact, (o.kept 1).json.pretty],
      (Observation.ofJson text).toOption.isNone := by
    decide +kernel
  have unread {text : String} (none : (Observation.ofJson text).toOption.isNone) :
      ¬ (o.kept 1).ReadsBack text := by
    rintro ⟨read, done, -⟩
    rw [done] at none
    cases none
  obtain ⟨start, h, after, disk, fresh, run, performed⟩ := exists_inserted (o := o) (by decide) rfl
    (by decide +kernel) (by decide +kernel)
  obtain ⟨now, keepsStart, -⟩ := fresh.keeps
  have alone : Run .memory start ⟨[] ++ h :: [], disk⟩ := run
  obtain ⟨l, keeps, -⟩ := alone.keeps keepsStart
  obtain ⟨healthy, stored⟩ := keeps.stored_observation performed
  obtain ⟨last, keepsNext, -⟩ := (alone.inserted performed).keeps keepsStart
  exact ⟨start, h, after, disk, o, o.kept 1, fresh, run, performed,
    keepsNext.getObservation_of_row stored List.mem_cons_self healthy,
    unread (refused _ (by simp)), unread (refused _ (by simp))⟩

end Session

end ObsCatalog
