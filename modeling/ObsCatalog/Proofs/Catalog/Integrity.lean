import ObsCatalog.Proofs.Catalog.Sequence
import ObsCatalog.Proofs.Sql.Column
import ObsCatalog.Proofs.Sql.Order

/-! Integrity of rows.

The rules of the tables are checked for each row that is added, and no row is removed that
another one refers to. So they hold of all rows at any time, whoever opens the database and
however often: references are enforced for every handle from the start.
-/

set_option autoImplicit false

namespace ObsCatalog

open Sql (Database)

structure Integrity (sources observations : Sql.Table) : Prop where
  sourceIds : (sources.rows.map (·.id)).Nodup
  observationIds : (observations.rows.map (·.id)).Nodup
  /-- Every observation refers to a source that is there. -/
  references : ∀ r ∈ observations.rows, ∃ id,
    Database.cellOf observations r "source_id" = .integer id ∧ sources.hasRow id
  /-- Dates and lengths are numbers: neither null nor not-a-number. -/
  numbers : ∀ column ∈ ["julian_date", "length_days"], ∀ r ∈ observations.rows, ∃ x,
    Database.cellOf observations r column = .real x ∧ x.isNaN = false

/-- A database has tables of sources and observations, and their rows keep the rules. -/
def IsIntact (db : Database) : Prop :=
  ∃ sources observations, db.table Table.source.name = .ok sources ∧
    db.table Table.observation.name = .ok observations ∧ Integrity sources observations

namespace Shelf

variable {α : Type} [Kept α] {s : Shelf α} {blank : Sql.Table}

theorem Sound.nodup_ids (sound : s.Sound) : ((s.table blank).rows.map (·.id)).Nodup := by
  show ((s.entries.map Kept.row).map (·.id)).Nodup
  exact List.Pairwise.map _ (fun _ _ => Int64.ne_of_lt) sound.ordered_rows

end Shelf

namespace Ledger

variable {l : Ledger}

theorem Sound.integrity (sound : l.Sound) : Integrity l.sourceTable l.observationTable where
  sourceIds := sound.sources.nodup_ids
  observationIds := sound.observations.nodup_ids
  references := fun r member => by
    obtain ⟨o, entry, rfl⟩ := List.mem_map.1 member
    have known : l.sourceTable.hasRow o.sourceId = (l.sources.get? o.sourceId).isSome :=
      l.sources.hasRow_table o.sourceId
    exact ⟨o.sourceId, l.cellOf_sourceId o, known.trans (sound.linked o entry)⟩
  numbers := fun column named r member => by
    obtain ⟨o, entry, rfl⟩ := List.mem_map.1 member
    obtain ⟨julian, length⟩ := sound.numbers o entry
    simp only [List.mem_cons, List.not_mem_nil, or_false] at named
    rcases named with rfl | rfl
    · exact ⟨o.julianDate, by cases l; rfl, julian⟩
    · exact ⟨o.lengthDays, by cases l; rfl, length⟩

theorem Sound.isIntact (sound : l.Sound) : IsIntact l.database :=
  ⟨l.sourceTable, l.observationTable, l.table_source, l.table_observation, sound.integrity⟩

theorem Sound.ordered (sound : l.Sound) : l.database.Ordered := by
  have stamp : Sql.Table.Ordered l.stampTable.rows := List.pairwise_singleton _ _
  exact List.forall_mem_cons.2 ⟨stamp, List.forall_mem_cons.2
    ⟨sound.sources.ordered_rows, List.forall_mem_singleton.2 sound.observations.ordered_rows⟩⟩

/-- Every row has a cell for each column. -/
theorem filled (l : Ledger) : l.database.Everywhere Sql.Table.Filled := by
  have stamp : Sql.Table.Filled l.stampTable := List.forall_mem_singleton.2 rfl
  have sources : Sql.Table.Filled l.sourceTable := List.forall_mem_map.2 fun _ _ => rfl
  have observations : Sql.Table.Filled l.observationTable := List.forall_mem_map.2 fun _ _ => rfl
  exact List.forall_mem_cons.2 ⟨stamp, List.forall_mem_cons.2
    ⟨sources, List.forall_mem_singleton.2 observations⟩⟩

theorem observationId_assigned_iff {o : Observation} {draws : Sql.Draws} {id : Int64} :
    l.observationId o .assigned draws = .ok id ↔ 0 < o.id ∧ id = o.id := by
  show (if o.id ≤ 0 then Except.error CatalogFault.missingId else .ok o.id) = .ok id ↔ _
  by_cases missing : o.id ≤ 0
  · rw [if_pos missing]
    exact ⟨nofun, fun positive => absurd positive.1 (Int64.not_lt.2 missing)⟩
  · rw [if_neg missing]
    exact ⟨fun given => ⟨Int64.not_le.1 missing, (Except.ok.inj given).symm⟩,
      fun given => congrArg Except.ok given.2.symm⟩

theorem hasRow_addObservation (l : Ledger) (o : Observation) (id : Int64) :
    ((l.addObservation o id).table .observation).hasRow id := by
  show ((l.observations.add (o.kept id)).table (Schema.observationTable _)).hasRow id
  rw [Shelf.table_add]
  exact hasRow_addRow _ (Kept.row (o.kept id))

end Ledger

namespace Session

open Handle

variable {d : Deployment} {home : Home} {s : Session} {l : Ledger}

theorem Keeps.isIntact (keeps : s.Keeps home l) {db : Database}
    (found : s.database? home = some db) : IsIntact db :=
  keeps.eq_database found ▸ keeps.sound.isIntact

/-- A database in a file is there at any time. -/
theorem Keeps.hasDatabase {place : Place} (keeps : s.Keeps (.file place) l) :
    s.database? (.file place) = some l.database := by
  have stored : s.disk.get? place = some (.database l.database) := keeps.stored
  simp only [database?, stored]

/-- An id that is assigned is kept only if it is positive. -/
theorem Keeps.assigned {front back : List Handle} {h after : Handle} {disk written : CatalogDisk}
    {o : Observation} {draws : Sql.Draws} {id : Int64}
    (keeps : (⟨front ++ h :: back, disk⟩ : Session).Keeps home l)
    (performed : h.perform (Handle.insertObservation o .assigned draws) disk =
      (.ok id, after, written)) :
    id = o.id ∧ 0 < id ∧
      (⟨front ++ after :: back, written⟩ : Session).HasRow home .observation id := by
  have poisoned (g : Handle) (broken : g.isPoisoned = true) :
      Handle.insertObservation o .assigned draws g = (.error Handle.poisoned, g) := by
    unfold Handle.insertObservation
    exact execute_of_poisoned broken _
  obtain ⟨next, outcome, serves⟩ := keeps.insertion poisoned
    (fun _ holds healthy => holds.insertObservation healthy o .assigned draws)
    (fun _ _ kept => ⟨keeps.sound.of_insertObservation kept,
      Ledger.moves_of_insertObservation kept⟩) performed
  obtain ⟨given, -, rfl⟩ := Ledger.insertObservation_eq_ok_iff.1 outcome
  obtain ⟨positive, rfl⟩ := Ledger.observationId_assigned_iff.1 given
  exact ⟨rfl, positive, keeps.hasRow_of_serves serves (l.hasRow_addObservation o o.id)⟩

/-- At any time the rows of a database keep the rules of its tables: ids are unique,
observations refer to sources that are there, and their dates and lengths are numbers. An
observation whose id is assigned is kept under it only if it is positive. -/
theorem Fresh.intact {start : Session} (fresh : Fresh d home start) (run : Run home start s) :
    (∀ db, s.database? home = some db → IsIntact db) ∧
    (∀ place, home = .file place → (s.database? home).isSome) ∧
    ∀ front h back o draws id after written, s.handles = front ++ h :: back →
      h.perform (Handle.insertObservation o .assigned draws) s.disk = (.ok id, after, written) →
      id = o.id ∧ 0 < id ∧
        (⟨front ++ after :: back, written⟩ : Session).HasRow home .observation id := by
  obtain ⟨now, keeps, -⟩ := fresh.keeps
  obtain ⟨l, keepsNow, -⟩ := run.keeps keeps
  refine ⟨fun db found => keepsNow.isIntact found, ?_, ?_⟩
  · rintro place rfl
    rw [keepsNow.hasDatabase]
    rfl
  · intro front h back o draws id after written among performed
    obtain ⟨handles, disk⟩ := s
    obtain rfl : handles = front ++ h :: back := among
    exact keepsNow.assigned performed

/-- At any time the rows of all tables are in the order of their ids and have a cell for each
column, as far as any handle can see. -/
theorem Fresh.orderly {start : Session} (fresh : Fresh d home start) (run : Run home start s) :
    ∀ h ∈ s.handles, (h.refreshed s.disk).connection.database.Ordered ∧
      (h.refreshed s.disk).connection.database.Everywhere Sql.Table.Filled := by
  obtain ⟨now, keeps, -⟩ := fresh.keeps
  obtain ⟨l, keepsNow, -⟩ := run.keeps keeps
  intro h among
  rw [(keepsNow.serves h among).refreshed.1.database]
  exact ⟨keepsNow.sound.ordered, l.filled⟩

/-- A source with an observation cannot be deleted, so the database stays intact. -/
theorem intact_referenced :
    ∃ (start s : Session) (db : Database), Fresh .librarian .memory start ∧
      Run .memory start s ∧ s.database? .memory = some db ∧ IsIntact db ∧
      (db.delete true Table.source.name 1).toOption.isNone ∧
      (db.table Table.observation.name).toOption.any (·.hasRow 7) := by
  let disk : CatalogDisk := ⟨[], []⟩
  let s : Source := ⟨0, "A", "key", ⟨0, 0, by decide, by decide, by decide, by decide⟩⟩
  let o : Observation := ⟨7, 1, Real.ofInt 2459000, "X", Real.ofInt 1⟩
  let new : Ledger := .new .librarian s.createTime
  let known : Ledger := new.addSource s
  let full : Ledger := known.addObservation o 7
  let on (l : Ledger) (id : Int64) (message : String) : Handle :=
    ⟨.librarian, memoryPath, ⟨l.database, true, id, true⟩, message, false⟩
  have source : Handle.insertSource s .inOrder (on new 1 "") = (.ok 1, on known 1 "") :=
    Holds.insertSource ⟨rfl, rfl, rfl, rfl⟩ (Ledger.sound_new _ _) rfl s
  have assigned : Handle.insertObservation o .assigned .inOrder (on known 1 "") =
      (.ok 7, on full 7 "") := by
    have kept : known.insertObservation o .assigned = .ok (7, full) :=
      Ledger.insertObservation_eq_ok_iff.2 ⟨rfl,
        Ledger.refusal_eq_none_iff.2 ⟨by decide +kernel, by decide +kernel, rfl, rfl⟩, rfl⟩
    rw [Holds.insertObservation (l := known) ⟨rfl, rfl, rfl, rfl⟩ rfl o .assigned, kept]
    rfl
  have refused : full.database.delete true Table.source.name 1 = .error .reference := by
    rw [full.delete_database .source 1]
    rfl
  have fresh : Fresh .librarian .memory ⟨[on new 1 ""], disk⟩ := .memory rfl
  have run : Run .memory ⟨[on new 1 ""], disk⟩ ⟨[on full 7 ""], disk⟩ :=
    .tail (.single (.of_private (.operate (.insertSource s)) rfl source ⟨rfl, rfl⟩))
      (.of_private (.operate (.insertObservation o .assigned)) rfl assigned ⟨rfl, rfl⟩)
  exact ⟨_, _, full.database, fresh, run, rfl, (Fresh.intact fresh run).1 _ rfl,
    by rw [refused]; rfl, rfl⟩

end Session

end ObsCatalog
