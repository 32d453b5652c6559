import ObsCatalog.Proofs.Catalog.Equality
import ObsCatalog.Proofs.CommandLine.Course

/-! Listing under conditions.

A command that lists records can be given values for some columns. The equalities with these
values are joined, and what is printed are the records in which every one of them holds.
-/

set_option autoImplicit false

namespace ObsCatalog

open Sql (Cell ColumnRef Engine StoredRow)

namespace Filter

variable {engine : Engine} {db : Sql.Database} {s : Sql.Table} {α : Type} {make : α → Filter}
  {p : α → StoredRow → Bool} {as : List α}

theorem exists_foldlM
    (each : ∀ a ∈ as, (make a).IsJoinable ∧ (make a).Admits engine db s (p a) True)
    {f : Filter} {q : StoredRow → Bool} (joinable : f.IsJoinable)
    (admits : f.Admits engine db s q True) :
    ∃ c, (as.map make).foldlM Filter.and f = .ok c ∧
      c.Admits engine db s (fun r => q r && as.all (p · r)) True := by
  induction as generalizing f q with
  | nil => exact ⟨f, rfl, by simpa using admits⟩
  | cons a as ih =>
    obtain ⟨⟨joinableA, admitsA⟩, others⟩ := List.forall_mem_cons.1 each
    have both := and_eq_ok_iff.2 ⟨joinable.anonymous, joinableA.anonymous, rfl⟩
    have admitsBoth := (admits.and admitsA both).imp fun _ : True => ⟨trivial, trivial⟩
    obtain ⟨c, done, all⟩ := ih others (joinable.and joinableA) admitsBoth
    refine ⟨c, ?_, ?_⟩
    · rw [List.map_cons, List.foldlM_cons, both]
      exact done
    · simpa only [List.all_cons, Bool.and_assoc] using all

/-- Filters that can be joined are joined to one that admits what all of them do, if there are
any. -/
theorem exists_all
    (each : ∀ a ∈ as, (make a).IsJoinable ∧ (make a).Admits engine db s (p a) True) :
    ∃ filter, Filter.all (as.map make) = .ok filter ∧
      filter.elim (as = []) fun c => c.Admits engine db s (fun r => as.all (p · r)) True := by
  cases as with
  | nil => exact ⟨none, rfl, rfl⟩
  | cons a as =>
    obtain ⟨⟨joinable, admits⟩, others⟩ := List.forall_mem_cons.1 each
    obtain ⟨c, done, all⟩ := exists_foldlM others joinable admits
    refine ⟨some c, ?_, all⟩
    rw [List.map_cons, Filter.all, done]
    rfl

end Filter

namespace CommandLine

def conditions (given : List (String × Option Value)) : List (String × Value) :=
  given.filterMap fun (column, v) => v.map (column, ·)

theorem mem_conditions {given : List (String × Option Value)} {column : String} {v : Value} :
    (column, v) ∈ conditions given ↔ (column, some v) ∈ given := by
  simp [conditions, List.mem_filterMap]

theorem all_conditions (given : List (String × Option Value)) (p : String → Value → Bool) :
    ((conditions given).all fun q => p q.1 q.2) = given.all fun q => q.2.all (p q.1) := by
  induction given with
  | nil => rfl
  | cons first given ih =>
    obtain ⟨column, value⟩ := first
    cases value with
    | none => exact ih.trans (Bool.true_and _).symm
    | some v => exact congrArg (p column v && ·) ih

theorem equalities_eq {given : List (String × Option Value)}
    (named : ∀ p ∈ conditions given, Filter.isColumnName p.1) :
    equalities given =
      Filter.all ((conditions given).map fun p => ⟨p.1 ++ " = ?", [p.2]⟩) := by
  -- Every name is one of a column, so that no condition is refused.
  have made : ∃ parts, (given.mapM fun (column, value) => equality column value) = .ok parts ∧
      parts.flatten = (conditions given).map fun p => ⟨p.1 ++ " = ?", [p.2]⟩ := by
    induction given with
    | nil => exact ⟨[], rfl, rfl⟩
    | cons first given ih =>
      obtain ⟨column, value⟩ := first
      cases value with
      | none =>
        obtain ⟨parts, done, flat⟩ := ih named
        refine ⟨[] :: parts, ?_, flat⟩
        rw [List.mapM_cons, done]
        rfl
      | some v =>
        obtain ⟨name, others⟩ := List.forall_mem_cons.1
          (show ∀ p ∈ (column, v) :: conditions given, Filter.isColumnName p.1 from named)
        obtain ⟨parts, done, flat⟩ := ih others
        have one : equality column (some v) = .ok [⟨column ++ " = ?", [v]⟩] := by
          rw [equality, Filter.eq_eq_ok_iff.2 ⟨name, rfl⟩]
          rfl
        refine ⟨[⟨column ++ " = ?", [v]⟩] :: parts, ?_, ?_⟩
        · simp only [List.mapM_cons, one, done]
          rfl
        · rw [List.flatten_cons, flat]
          rfl
  obtain ⟨parts, done, flat⟩ := made
  simp only [equalities, done, bind, Except.bind, flat]

end CommandLine

namespace Handle

open CommandLine (all_conditions conditions equalities equalities_eq mem_conditions)

variable {h : Handle} {l : Ledger} {t : Table}

/-- The rows that are listed are those in which every column with a value has an equal one. -/
theorem Holds.enumerate_equalities (holds : h.Holds l) (sound : l.Sound)
    (healthy : h.isPoisoned = false) {given : List (String × Option Value)}
    (typed : ∀ column v, (column, some v) ∈ given →
      ∃ a, (column, a) ∈ (l.table t).typedColumns ∧ v.isOf a) :
    ∃ filter, equalities given = .ok filter ∧ (Handle.enumerate t filter .standard h).1 =
      .ok ((l.rows t).filter fun row => given.all fun q => q.2.all (row.hasEqual q.1)) := by
  have columns : ∀ q ∈ conditions given,
      ∃ c, IsColumn t (l.table t) q.1 c ∧ (q.2.isOf c.affinity ∨ q.2.isMissing) := by
    rintro ⟨column, v⟩ member
    obtain ⟨_, declared, own⟩ := typed column v (mem_conditions.1 member)
    obtain ⟨c, rfl, isColumn⟩ := sound.exists_isColumn declared
    exact ⟨c, isColumn, .inl own⟩
  have : Nonempty ColumnRef := ⟨⟨none, .none⟩⟩
  choose! c isColumn typed using columns
  obtain ⟨filter, joined, admits⟩ := Filter.exists_all fun q member =>
    ⟨(Filter.isJoinable_eq ((isColumn q member).eq_ok q.2)).1, (isColumn q member).admits q.2⟩
  refine ⟨filter, ?_, ?_⟩
  · rw [equalities_eq fun q member => (isColumn q member).plain.1, joined]
  simp only [← all_conditions]
  cases filter with
  | none =>
    have nothing : conditions given = [] := admits
    rw [holds.enumerate healthy t .standard, nothing]
    exact congrArg Except.ok (List.filter_true _).symm
  | some f =>
    have found : h.connection.database.table t.name = .ok (l.table t) :=
      holds.database ▸ l.table_database t
    -- The filter compares cells, which on rows of the table comes to comparing what is shown.
    have equal : ∀ r ∈ (l.table t).rows,
        ((conditions given).all fun q => r.matches (c q) (Cell.ofValue q.2)) =
          (conditions given).all fun q => (shown t (l.table t) r).hasEqual q.1 q.2 := by
      intro r stored
      rw [Bool.eq_iff_iff, List.all_eq_true, List.all_eq_true]
      refine forall₂_congr fun q member => ?_
      rw [(isColumn q member).matches_eq (typed q member) stored]
    rw [enumerate_of_admits healthy found admits trivial, List.filter_congr equal,
      ← map_selectedRow, List.filter_map]
    rfl

theorem Holds.listSources_equalities (holds : h.Holds l) (sound : l.Sound)
    (healthy : h.isPoisoned = false) (name : Option String) :
    ∃ filter, equalities [("name", name.map .text)] = .ok filter ∧
      (Handle.listSources filter .standard h).1 =
        .ok (l.sources.entries.filter fun s => name.all (s.name == ·)) := by
  have typed : ∀ column v, (column, some v) ∈ [("name", name.map Value.text)] →
      ∃ a, (column, a) ∈ (l.table .source).typedColumns ∧ v.isOf a := by
    intro column v member
    obtain ⟨rfl, given⟩ := Prod.mk.inj (List.mem_singleton.1 member)
    obtain ⟨text, -, rfl⟩ := Option.map_eq_some_iff.1 given.symm
    exact ⟨.text, List.mem_of_getElem? (show _[1]? = _ from rfl), rfl⟩
  obtain ⟨filter, made, listed⟩ := holds.enumerate_equalities sound healthy typed
  refine ⟨filter, made, ?_⟩
  rw [Handle.listSources, reading_ok (Prod.ext listed rfl)]
  refine (sound.mapM_sources _).trans (congrArg Except.ok (List.filter_congr fun s _ => ?_))
  cases name with
  | none => rfl
  | some text => exact Bool.and_true _

theorem Holds.listObservations_equalities (holds : h.Holds l) (sound : l.Sound)
    (healthy : h.isPoisoned = false) (sourceId : Option Int64) (polarization : Option String) :
    ∃ filter, equalities
        [("source_id", sourceId.map .integer), ("polarization", polarization.map .text)] =
          .ok filter ∧
      (Handle.listObservations filter .standard h).1 = .ok (l.observations.entries.filter fun o =>
        sourceId.all (o.sourceId == ·) && polarization.all (o.polarization == ·)) := by
  have typed : ∀ column v, (column, some v) ∈
      [("source_id", sourceId.map Value.integer), ("polarization", polarization.map Value.text)] →
      ∃ a, (column, a) ∈ (l.table .observation).typedColumns ∧ v.isOf a := by
    intro column v member
    rcases List.mem_pair.1 member with same | same
    · obtain ⟨rfl, given⟩ := Prod.mk.inj same
      obtain ⟨id, -, rfl⟩ := Option.map_eq_some_iff.1 given.symm
      exact ⟨.integer, List.mem_of_getElem? (show _[1]? = _ from rfl), rfl⟩
    · obtain ⟨rfl, given⟩ := Prod.mk.inj same
      obtain ⟨text, -, rfl⟩ := Option.map_eq_some_iff.1 given.symm
      exact ⟨.text, List.mem_of_getElem? (show _[3]? = _ from rfl), rfl⟩
  obtain ⟨filter, made, listed⟩ := holds.enumerate_equalities sound healthy typed
  refine ⟨filter, made, ?_⟩
  rw [Handle.listObservations, reading_ok (Prod.ext listed rfl)]
  refine (l.mapM_observations _).trans (congrArg Except.ok (List.filter_congr fun o _ => ?_))
  simp only [List.all_cons, List.all_nil, Bool.and_true, Option.all_map]
  rfl

end Handle

/-- A database that sessions come to, from when it was new. -/
def Session.Arrives (db : Sql.Database) : Prop :=
  ∃ d home start s, Fresh d home start ∧ Run home start s ∧ s.database? home = some db

theorem accounted_of_arrives {disk : CatalogDisk}
    (arrives : ∀ place db, disk.databaseAt place = some db → Session.Arrives db) :
    Accounted disk := by
  intro place db found
  obtain ⟨d, home, start, s, fresh, run, database⟩ := arrives place db found
  obtain ⟨now, keepsStart, -⟩ := fresh.keeps
  obtain ⟨l, keeps, -⟩ := run.keeps keepsStart
  exact ⟨l, keeps.sound, keeps.eq_database database⟩

theorem Ledger.Sound.nodup_rows {l : Ledger} (sound : l.Sound) (t : Table) : (l.rows t).Nodup := by
  have ordered : Sql.Table.Ordered (l.table t).rows := by
    cases t with
    | source => exact sound.sources.ordered_rows
    | observation => exact sound.observations.ordered_rows
  have nodup := Handle.nodup_shown (t := t) (s := l.table t) ordered fun _ => true
  rw [List.filter_true] at nodup
  rw [← Handle.map_selectedRow]
  exact nodup

namespace CommandLine

/-- Of the records that a table of a database holds, those that satisfy a condition are printed
as a JSON array, and nothing fails. -/
def PrintsWhere {α : Type} (outcome : Outcome) (db : Sql.Database) (t : Table)
    (ofRow : Row → Except CatalogFault α) (isObject : α → Json → Prop) (holds : α → Bool) : Prop :=
  ∃ s records, db.table t.name = .ok s ∧
    (s.rows.map (Handle.shown t s)).mapM ofRow = .ok records ∧ outcome.code = 0 ∧
    Json.TellsAll isObject (records.filter holds) outcome.output

theorem printsWhere_of_accounted {e : Surroundings} {arguments : List String} {o : Options}
    {r : Request} {disk written opened : CatalogDisk} {settings : Settings} {h : Handle}
    {opening : Schema.Opening} (accounted : Accounted disk)
    (read : Invocation.read e.dataDirectory arguments = .ok ⟨o, .request r⟩)
    (loaded : configured o disk = .ok (settings, written))
    (opens : Handle.openFile o.deployment settings.locations e.dataHome e.now written =
      (.ok (h, opening), opened)) :
    (∀ name, r = .listSources name →
      PrintsWhere (run e arguments disk).1 (h.refreshed opened).connection.database .source
        Source.ofRow Source.IsObject fun s => name.all (s.name == ·)) ∧
    ∀ sourceId polarization, r = .listObservations sourceId polarization →
      PrintsWhere (run e arguments disk).1 (h.refreshed opened).connection.database .observation
        Observation.ofRow Observation.IsObject fun o =>
          sourceId.all (o.sourceId == ·) && polarization.all (o.polarization == ·) := by
  -- Writing the settings leaves the databases alone, and what is opened is one of them.
  have accountedWritten := accounted.of_databaseAt_eq (databaseAt_configured loaded)
  obtain ⟨l, home, visits⟩ := Handle.visits_of_openFile accountedWritten opens
  obtain ⟨holds, follows⟩ := visits.serves.refreshed
  have healthy : (h.refreshed opened).isPoisoned = false := follows.isPoisoned.trans visits.healthy
  rw [holds.database]
  constructor
  · rintro name rfl
    obtain ⟨filter, made, listed⟩ := holds.listSources_equalities visits.sound healthy name
    have asked : (Request.listSources name).operation e.moment h.deployment =
        .ok (some (.listSources filter)) := by rw [Request.operation, made]
    obtain ⟨code, output⟩ := run_of_operation read loaded opens asked listed
    refine ⟨_, _, l.table_source, ?_, code, output⟩
    have shown : l.sourceTable.rows.map (Handle.shown .source l.sourceTable) = l.rows .source :=
      Handle.map_selectedRow l .source
    rw [shown]
    exact mapM_ofRow fun s member => Source.ofRow_row (visits.sound.whole s member)
  · rintro sourceId polarization rfl
    obtain ⟨filter, made, listed⟩ :=
      holds.listObservations_equalities visits.sound healthy sourceId polarization
    have asked : (Request.listObservations sourceId polarization).operation e.moment h.deployment =
        .ok (some (.listObservations filter)) := by rw [Request.operation, made]
    obtain ⟨code, output⟩ := run_of_operation read loaded opens asked listed
    refine ⟨_, _, l.table_observation, ?_, code, output⟩
    have shown : l.observationTable.rows.map (Handle.shown .observation l.observationTable) =
        l.rows .observation := Handle.map_selectedRow l .observation
    rw [shown]
    exact mapM_ofRow fun o _ => o.ofRow_row

end CommandLine

end ObsCatalog
