import ObsCatalog.Catalog.Records
import ObsCatalog.Proofs.Calendar.Stamp
import ObsCatalog.Proofs.Catalog.Shelf
import ObsCatalog.Proofs.Sql.Affinity
import ObsCatalog.Proofs.Sql.Database
import ObsCatalog.Proofs.Sql.Select

/-! What the database of a catalog holds.

A ledger is a catalog before its encoding in tables: a shelf of sources and a shelf of
observations. Every statement of a catalog on the database of a ledger comes to something
on the ledger, and what it leaves is the database of a ledger again.
-/

set_option autoImplicit false

namespace ObsCatalog

open Sql (Cell Connection Database)

instance : Kept Source := ⟨Source.id, Handle.sourceCells⟩

instance : Kept Observation where
  key := Observation.id
  cells o := [.integer o.sourceId, .real o.julianDate, .text o.polarization, .real o.lengthDays]

def Source.kept (s : Source) (id : Int64) : Source :=
  { s with id, createTime := s.createTime.kept }

def Observation.kept (o : Observation) (id : Int64) : Observation :=
  { o with
    id
    julianDate := Real.plainZero o.julianDate
    lengthDays := Real.plainZero o.lengthDays }

structure Ledger where
  deployment : Deployment
  stamped : Calendar.Instant
  sources : Shelf Source
  observations : Shelf Observation

namespace Ledger

def new (d : Deployment) (now : Calendar.Instant) : Ledger := ⟨d, now, .empty, .empty⟩

def stampTable (l : Ledger) : Sql.Table :=
  { Schema.stampTable with
    rows := [⟨1, [.integer (Int64.ofInt Schema.version), .text l.deployment.name,
      .text (Calendar.Stamp.write l.stamped.wholeSecond)]⟩] }

def sourceTable (l : Ledger) : Sql.Table := l.sources.table Schema.sourceTable

def observationTable (l : Ledger) : Sql.Table :=
  l.observations.table (Schema.observationTable l.deployment.idPolicy)

def database (l : Ledger) : Database := ⟨[l.stampTable, l.sourceTable, l.observationTable]⟩

structure Sound (l : Ledger) : Prop where
  sources : l.sources.Sound
  observations : l.observations.Sound
  /-- Times are kept without fractions. -/
  whole : ∀ s ∈ l.sources.entries, s.createTime.kept = s.createTime
  /-- Every observation is one of a source that is there. -/
  linked : ∀ o ∈ l.observations.entries, (l.sources.get? o.sourceId).isSome
  /-- Dates and lengths are numbers. -/
  numbers : ∀ o ∈ l.observations.entries, o.julianDate.isNaN = false ∧ o.lengthDays.isNaN = false

theorem sound_new (d : Deployment) (now : Calendar.Instant) : (new d now).Sound where
  sources := Shelf.sound_empty
  observations := Shelf.sound_empty
  whole := by simp [new, Shelf.empty]
  linked := by simp [new, Shelf.empty]
  numbers := by simp [new, Shelf.empty]

variable {l : Ledger}

theorem table_source (l : Ledger) : l.database.table Table.source.name = .ok l.sourceTable := rfl

theorem table_observation (l : Ledger) :
    l.database.table Table.observation.name = .ok l.observationTable := rfl

theorem withTable_source (l : Ledger) (sources : Shelf Source) :
    l.database.withTable (sources.table Schema.sourceTable) = { l with sources }.database := rfl

theorem withTable_observation (l : Ledger) (observations : Shelf Observation) :
    l.database.withTable (observations.table (Schema.observationTable l.deployment.idPolicy)) =
      { l with observations }.database := rfl

theorem prepare_empty (d : Deployment) (now : Calendar.Instant) :
    Schema.prepare d now (.new .empty) = (.ok .created, ⟨(new d now).database, true, 1, true⟩) := by
  cases d <;> rfl

theorem stamp_database (l : Ledger) :
    Schema.stamp l.database = .ok (some ⟨Schema.version, l.deployment.name⟩) := by
  have column (name : String) :
      Sql.Mention.columnOf l.stampTable name = Sql.Mention.columnOf Schema.stampTable name := rfl
  have columns : Schema.checkStampColumns l.stampTable = .ok () := by
    simp only [Schema.checkStampColumns, column]
    rfl
  have row : l.stampTable.row? 1 = some ⟨1, [.integer (Int64.ofInt Schema.version),
    .text l.deployment.name, .text (Calendar.Stamp.write l.stamped.wholeSecond)]⟩ := rfl
  have version : Schema.versionOf (.integer (Int64.ofInt Schema.version)) = .ok Schema.version := by
    rfl
  have found : l.database.table? Schema.stampName = some l.stampTable := rfl
  simp only [Schema.stamp, found, columns, row, bind, Except.bind]
  rfl

/-- A ledger is opened for its own deployment, which leaves it as it is, and refused for
any other. -/
theorem prepare_database {c : Connection} (holds : c.database = l.database) (d : Deployment)
    (now : Calendar.Instant) :
    Schema.prepare d now c =
      if d = l.deployment then (.ok .current, c)
      else (.error (.connection d ("file holds the " ++ l.deployment.name ++ " schema")), c) := by
  unfold Schema.prepare
  simp only [holds, stamp_database, Schema.refusal]
  by_cases same : d = l.deployment
  · simp [same]
  · have other : l.deployment.name ≠ d.name := fun equal =>
      same (Deployment.name_injective equal).symm
    simp [same, other]

def addSource (l : Ledger) (s : Source) : Ledger :=
  { l with sources := l.sources.add (s.kept (l.sources.last + 1)) }

theorem row_kept_source (s : Source) (id : Int64) :
    Kept.row (s.kept id) = ⟨id, Handle.sourceCells s⟩ := by
  show (⟨id, Handle.sourceCells (s.kept id)⟩ : Sql.StoredRow) = _
  simp [Handle.sourceCells, Source.kept]

theorem insertRow_source (sound : l.Sound) (s : Source) (below : l.sources.last ≠ Int64.maxValue) :
    l.sourceTable.insertRow ⟨l.sources.last + 1, Handle.sourceCells s⟩ =
      .ok (l.addSource s).sourceTable := by
  have admitted : l.sourceTable.admits ⟨l.sources.last + 1, Handle.sourceCells s⟩ = .ok () := rfl
  have free : l.sourceTable.hasRow (l.sources.last + 1) = false := by
    rw [sourceTable, Shelf.hasRow_table, sound.sources.get?_next below]
    rfl
  have added : l.sourceTable.addRow ⟨l.sources.last + 1, Handle.sourceCells s⟩ =
      (l.addSource s).sourceTable := by
    simp only [sourceTable, addSource, Shelf.table_add, row_kept_source]
  rw [Sql.Table.insertRow_eq, admitted]
  show (if l.sourceTable.hasRow (l.sources.last + 1) then _ else _) = _
  rw [free, added]
  rfl

theorem Sound.insert_source (sound : l.Sound) (enforced : Bool) (s : Source)
    (draws : Sql.Draws) :
    l.database.insert enforced Table.source.name Handle.sourceColumns (Handle.sourceCells s) draws =
      if l.sources.last = Int64.maxValue then .error .full
      else .ok (l.sources.last + 1, (l.addSource s).database) := by
  have next : l.sourceTable.idFor .null draws =
      if l.sources.last = Int64.maxValue then .error .full else .ok (l.sources.last + 1) :=
    sound.sources.nextId_of_sequence (by simp [Schema.sourceTable]) draws
  have row (id : Int64) : l.sourceTable.rowFor id Handle.sourceColumns (Handle.sourceCells s) =
      ⟨id, Handle.sourceCells s⟩ := rfl
  have targets : (Handle.sourceColumns.find? fun column =>
      !(l.sourceTable.hasColumn column || Sql.Table.isRowIdName column)) = none := by
    simp only [sourceTable, Shelf.hasColumn_table]
    rfl
  have asked : l.sourceTable.asked Handle.sourceColumns (Handle.sourceCells s) = .null := by
    rw [sourceTable, Shelf.asked_table]
    rfl
  rw [Database.insert_eq l.table_source targets rfl, Sql.Table.insert_eq asked, next]
  by_cases full : l.sources.last = Int64.maxValue
  · simp only [if_pos full]
  · simp only [if_neg full, row, insertRow_source sound s full]
    cases enforced <;> rfl

def addObservation (l : Ledger) (o : Observation) (id : Int64) : Ledger :=
  { l with observations := l.observations.add (o.kept id) }

/-- The row of an observation; a real that is no number leaves its cell empty. -/
def observationRow (o : Observation) (id : Int64) : Sql.StoredRow :=
  ⟨id, [.integer o.sourceId, Sql.Affinity.real.stored (Cell.ofValue (.real o.julianDate)),
    .text o.polarization, Sql.Affinity.real.stored (Cell.ofValue (.real o.lengthDays))]⟩

def refusal (l : Ledger) (o : Observation) (id : Int64) : Option Sql.Fault :=
  if o.julianDate.isNaN then some (.required Table.observation.name "julian_date")
  else if o.lengthDays.isNaN then some (.required Table.observation.name "length_days")
  else if (l.observations.get? id).isSome then some (.duplicateKey Table.observation.name "id")
  else if (l.sources.get? o.sourceId).isNone then some .reference
  else none

theorem refusal_eq_none_iff {o : Observation} {id : Int64} :
    l.refusal o id = none ↔
      o.julianDate.isNaN = false ∧ o.lengthDays.isNaN = false ∧ l.observations.get? id = none ∧
        (l.sources.get? o.sourceId).isSome := by
  unfold refusal
  constructor
  · intro accepted
    split at accepted
    · cases accepted
    next julian =>
    split at accepted
    · cases accepted
    next length =>
    split at accepted
    · cases accepted
    next unused =>
    split at accepted
    · cases accepted
    next known =>
    exact ⟨Bool.eq_false_iff.2 julian, Bool.eq_false_iff.2 length,
      Option.not_isSome_iff_eq_none.1 unused,
      Option.isSome_iff_ne_none.2 (mt Option.isNone_iff_eq_none.2 known)⟩
  · rintro ⟨julian, length, unused, known⟩
    rw [if_neg (Bool.eq_false_iff.1 julian), if_neg (Bool.eq_false_iff.1 length),
      if_neg (Option.not_isSome_iff_eq_none.2 unused),
      if_neg fun none => by simp [Option.isNone_iff_eq_none.1 none] at known]

theorem row_kept_observation {o : Observation} (julian : o.julianDate.isNaN = false)
    (length : o.lengthDays.isNaN = false) (id : Int64) :
    Kept.row (o.kept id) = observationRow o id := by
  rw [observationRow, Sql.Affinity.stored_of_isNaN_false julian,
    Sql.Affinity.stored_of_isNaN_false length]
  rfl

theorem admits_observation (policy : IdPolicy) (o : Observation) (id : Int64) :
    (Schema.observationTable policy).admits (observationRow o id) =
      if o.julianDate.isNaN then .error (.required Table.observation.name "julian_date")
      else if o.lengthDays.isNaN then .error (.required Table.observation.name "length_days")
      else .ok () := by
  unfold observationRow
  by_cases julian : o.julianDate.isNaN
  · rw [if_pos julian, Sql.Affinity.stored_of_isNaN julian]
    rfl
  rw [if_neg julian, Sql.Affinity.stored_of_isNaN_false (Bool.eq_false_iff.2 julian)]
  by_cases length : o.lengthDays.isNaN
  · rw [if_pos length, Sql.Affinity.stored_of_isNaN length]
    rfl
  · rw [if_neg length, Sql.Affinity.stored_of_isNaN_false (Bool.eq_false_iff.2 length)]
    rfl

theorem refersTo_source (id : Int64) (s : Source) :
    Database.refersTo (.integer id) (Kept.row s).id = (Kept.key s == id) := by
  show (id == Kept.key s) = (Kept.key s == id)
  exact Bool.beq_comm

theorem referencesHold_observation (l : Ledger) (t : Sql.Table)
    (references : t.references = [⟨"source_id", Table.source.name⟩])
    (columns : t.columns = (Schema.observationTable l.deployment.idPolicy).columns)
    (o : Observation) (id : Int64) :
    l.database.referencesHold t (observationRow o id) = (l.sources.get? o.sourceId).isSome := by
  have cell : Database.cellOf t (observationRow o id) "source_id" = .integer o.sourceId := by
    rw [Database.cellOf, columns]
    rfl
  have target : l.database.table? Table.source.name = some l.sourceTable := rfl
  simp only [Database.referencesHold, references, cell, target, List.all_cons, List.all_nil,
    Cell.isNull, Option.elim, Bool.false_or, Bool.and_true]
  have known : l.sourceTable.hasRow o.sourceId = (l.sources.get? o.sourceId).isSome :=
    l.sources.hasRow_table o.sourceId
  rw [← known]
  simp only [sourceTable, Shelf.table, Sql.Table.hasRow, List.any_map, Function.comp_def,
    refersTo_source]
  rfl

/-- Where the database generates the ids of observations, each is one more than any before. -/
theorem Sound.nextId_observation (sound : l.Sound) (policy : l.deployment.idPolicy = .generated)
    (draws : Sql.Draws) :
    l.observationTable.nextId draws =
      if l.observations.last = Int64.maxValue then .error .full
      else .ok (l.observations.last + 1) :=
  sound.observations.nextId_of_sequence (by simp [Schema.observationTable, policy,
    Schema.observationSequence]) draws

/-- The next id of an observation is free. Once the greatest integer has been given there is none;
without a sequence that matters only while a row has it. -/
theorem Sound.nextId (sound : l.Sound) (draws : Sql.Draws) :
    match l.observationTable.nextId draws with
    | .ok id => l.observations.get? id = none ∧
        (l.deployment.idPolicy = .generated → l.observations.last ≠ Int64.maxValue)
    | .error fault => fault = .full ∧
        (l.deployment.idPolicy = .generated → l.observations.last = Int64.maxValue) ∧
        (l.deployment.idPolicy = .assigned → (l.observations.get? Int64.maxValue).isSome) := by
  cases policy : l.deployment.idPolicy with
  | generated =>
    rw [sound.nextId_observation policy]
    by_cases full : l.observations.last = Int64.maxValue
    · rw [if_pos full]
      exact ⟨rfl, fun _ => full, nofun⟩
    · rw [if_neg full]
      exact ⟨sound.observations.get?_next full, fun _ => full⟩
  | assigned =>
    have unsequenced : l.observationTable.sequence = none := by
      simp [observationTable, Shelf.table, Schema.observationTable, policy,
        Schema.observationSequence]
    have next := Sql.Table.nextId_of_none sound.observations.ordered_rows unsequenced draws
    have used (id : Int64) : l.observationTable.hasRow id = (l.observations.get? id).isSome :=
      l.observations.hasRow_table id
    simp only [used] at next
    cases given : l.observationTable.nextId draws with
    | ok id => simpa [given] using next
    | error fault => simpa [given] using next

def keep (l : Ledger) (o : Observation) (id : Int64) : Except Sql.Fault (Int64 × Ledger) :=
  match l.refusal o id with
  | some fault => .error fault
  | none => .ok (id, l.addObservation o id)

/-- Once an observation has an id, it is kept under it or refused. -/
theorem insert_observation (l : Ledger) (o : Observation) {names : List String} {cells : List Cell}
    {asked : Cell}
    (targets : (names.find? fun column =>
      !(l.observationTable.hasColumn column || Sql.Table.isRowIdName column)) = none)
    (asks : l.observationTable.asked names cells = asked)
    (row : ∀ id, l.observationTable.rowFor id names cells = observationRow o id)
    (draws : Sql.Draws) :
    l.database.insert true Table.observation.name names cells draws =
      match l.observationTable.idFor asked draws with
      | .error fault => .error fault
      | .ok id => (l.keep o id).map fun (id, kept) => (id, kept.database) := by
  rw [Database.insert_eq l.table_observation targets rfl, Sql.Table.insert_eq asks]
  cases l.observationTable.idFor asked draws with
  | error fault => rfl
  | ok id =>
    have admitted : l.observationTable.admits (observationRow o id) = _ :=
      admits_observation l.deployment.idPolicy o id
    have taken : l.observationTable.hasRow (observationRow o id).id = _ :=
      l.observations.hasRow_table id
    simp only [row, Sql.Table.insertRow_eq, admitted, taken, keep, refusal]
    -- A row is refused for its own cells first, then for its id, then for what it refers to.
    by_cases julian : o.julianDate.isNaN
    · simp only [if_pos julian]
      rfl
    by_cases length : o.lengthDays.isNaN
    · simp only [if_neg julian, if_pos length]
      rfl
    by_cases used : (l.observations.get? id).isSome
    · simp only [if_neg julian, if_neg length, if_pos used]
      rfl
    have added : l.observationTable.addRow (observationRow o id) =
        (l.addObservation o id).observationTable := by
      simp only [observationTable, addObservation, Shelf.table_add, row_kept_observation
        (Bool.eq_false_iff.2 julian) (Bool.eq_false_iff.2 length)]
    have written : l.database.withTable (l.addObservation o id).observationTable =
        (l.addObservation o id).database := l.withTable_observation _
    have held := (l.addObservation o id).referencesHold_observation
      (l.addObservation o id).observationTable rfl rfl o id
    have kept : (l.addObservation o id).sources = l.sources := rfl
    simp only [if_neg julian, if_neg length, if_neg used, added, written, held, kept]
    cases known : l.sources.get? o.sourceId <;> rfl

theorem insert_assigned (l : Ledger) (o : Observation) (draws : Sql.Draws) :
    l.database.insert true Table.observation.name ("id" :: Handle.observationColumns)
        (.integer o.id :: Handle.observationCells o) draws =
      (l.keep o o.id).map fun (id, kept) => (id, kept.database) := by
  have targets : (("id" :: Handle.observationColumns).find? fun column =>
      !(l.observationTable.hasColumn column || Sql.Table.isRowIdName column)) = none := by
    simp only [observationTable, Shelf.hasColumn_table]
    cases l.deployment.idPolicy <;> rfl
  have asked : l.observationTable.asked ("id" :: Handle.observationColumns)
      (.integer o.id :: Handle.observationCells o) = .integer o.id := by
    rw [observationTable, Shelf.asked_table]
    cases l.deployment.idPolicy <;> rfl
  have row (id : Int64) : l.observationTable.rowFor id ("id" :: Handle.observationColumns)
      (.integer o.id :: Handle.observationCells o) = observationRow o id := by
    rw [observationTable, Shelf.rowFor_table]
    rfl
  exact l.insert_observation o targets asked row draws

theorem insert_generated (l : Ledger) (o : Observation) (draws : Sql.Draws) :
    l.database.insert true Table.observation.name Handle.observationColumns
        (Handle.observationCells o) draws =
      match l.observationTable.nextId draws with
      | .error fault => .error fault
      | .ok id => (l.keep o id).map fun (id, kept) => (id, kept.database) := by
  have targets : (Handle.observationColumns.find? fun column =>
      !(l.observationTable.hasColumn column || Sql.Table.isRowIdName column)) = none := by
    simp only [observationTable, Shelf.hasColumn_table]
    cases l.deployment.idPolicy <;> rfl
  have asked : l.observationTable.asked Handle.observationColumns (Handle.observationCells o) =
      .null := by
    rw [observationTable, Shelf.asked_table]
    cases l.deployment.idPolicy <;> rfl
  have row (id : Int64) : l.observationTable.rowFor id Handle.observationColumns
      (Handle.observationCells o) = observationRow o id := by
    rw [observationTable, Shelf.rowFor_table]
    rfl
  exact l.insert_observation o targets asked row draws

def table (l : Ledger) : Table → Sql.Table
  | .source => l.sourceTable
  | .observation => l.observationTable

def remove (l : Ledger) (id : Int64) : Table → Ledger
  | .source => { l with sources := l.sources.remove id }
  | .observation => { l with observations := l.observations.remove id }

theorem table_database (l : Ledger) (t : Table) : l.database.table t.name = .ok (l.table t) := by
  cases t <;> rfl

theorem delete_database (l : Ledger) (t : Table) (id : Int64) :
    l.database.delete true t.name id =
      if (l.table t).hasRow id then
        if (l.remove id t).database.isReferred t.name id then .error .reference
        else .ok (1, (l.remove id t).database)
      else .ok (0, l.database) := by
  have key : (l.table t).hasColumn "id" := by
    cases t with
    | source =>
      show (l.sources.table Schema.sourceTable).hasColumn "id"
      rw [Shelf.hasColumn_table]
      rfl
    | observation =>
      show (l.observations.table (Schema.observationTable l.deployment.idPolicy)).hasColumn "id"
      rw [Shelf.hasColumn_table]
      cases l.deployment.idPolicy <;> rfl
  have referenced : l.database.checkReferenced (l.table t) = .ok () := by cases t <;> rfl
  have removed : l.database.withTable ((l.table t).removeRow id) = (l.remove id t).database := by
    cases t with
    | source =>
      show l.database.withTable ((l.sources.table _).removeRow id) = _
      rw [← Shelf.table_remove, withTable_source]
      rfl
    | observation =>
      show l.database.withTable ((l.observations.table _).removeRow id) = _
      rw [← Shelf.table_remove, withTable_observation]
      rfl
  rw [Database.delete_eq (l.table_database t) key referenced, removed]
  rfl

theorem cellOf_sourceId (l : Ledger) (o : Observation) :
    Database.cellOf l.observationTable (Kept.row o) "source_id" = .integer o.sourceId := rfl

theorem isReferred_source (l : Ledger) (id : Int64) :
    l.database.isReferred Table.source.name id =
      l.observations.entries.any fun o => o.sourceId == id := by
  have own : l.observationTable.references = [⟨"source_id", Table.source.name⟩] := rfl
  have rows : l.observationTable.rows = l.observations.entries.map Kept.row := rfl
  have stamp : l.stampTable.references = [] := rfl
  have source : l.sourceTable.references = [] := rfl
  simp only [Database.isReferred, database, List.any_cons, List.any_nil, stamp, source, own, rows,
    List.any_map, Function.comp_def, cellOf_sourceId, Bool.false_or, Bool.or_false, decide_true,
    Bool.true_and]
  rfl

theorem Sound.addSource (sound : l.Sound) (s : Source) (below : l.sources.last ≠ Int64.maxValue) :
    (l.addSource s).Sound where
  sources := sound.sources.add (sound.sources.get?_next below)
  observations := sound.observations
  whole := fun kept member => by
    rcases List.mem_cons.1 ((l.sources.entries_add _).mem_iff.1 member) with rfl | member
    · exact s.createTime.kept_kept
    · exact sound.whole kept member
  linked := fun o member => Shelf.isSome_get?_add (sound.linked o member) _
  numbers := sound.numbers

theorem Sound.addObservation (sound : l.Sound) (o : Observation) {id : Int64}
    (accepted : l.refusal o id = none) : (l.addObservation o id).Sound := by
  obtain ⟨julian, length, free, known⟩ := refusal_eq_none_iff.1 accepted
  -- The new observation was checked, and all others are as they were.
  have added {kept : Observation} (member : kept ∈ (l.addObservation o id).observations.entries) :
      kept = o.kept id ∨ kept ∈ l.observations.entries :=
    List.mem_cons.1 ((l.observations.entries_add _).mem_iff.1 member)
  refine ⟨sound.sources, sound.observations.add free, sound.whole, fun kept member => ?_,
    fun kept member => ?_⟩
  · rcases added member with rfl | member
    · exact known
    · exact sound.linked kept member
  · rcases added member with rfl | member
    · exact ⟨Real.isNaN_plainZero julian, Real.isNaN_plainZero length⟩
    · exact sound.numbers kept member

/-- Removing is sound as long as nothing refers to what is removed. -/
theorem Sound.remove (sound : l.Sound) {id : Int64} {t : Table}
    (unreferred : (l.remove id t).database.isReferred t.name id = false) :
    (l.remove id t).Sound := by
  cases t with
  | source =>
    rw [isReferred_source] at unreferred
    refine ⟨sound.sources.remove id, sound.observations,
      fun s member => sound.whole s (List.mem_filter.1 member).1, fun o member => ?_,
      sound.numbers⟩
    exact Shelf.isSome_get?_remove (sound.linked o member)
      (by simpa using List.any_eq_false.1 unreferred o member)
  | observation =>
    exact ⟨sound.sources, sound.observations.remove id, sound.whole,
      fun o member => sound.linked o (List.mem_filter.1 member).1,
      fun o member => sound.numbers o (List.mem_filter.1 member).1⟩

end Ledger

end ObsCatalog
