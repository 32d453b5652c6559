import ObsCatalog.Proofs.Catalog.Gain
import ObsCatalog.Proofs.CommandLine.Course

/-! What the exit code of a command tells.

A command that fails has changed no row. A command that adds a row and succeeds has added
this one row and prints the record in it.
-/

set_option autoImplicit false

namespace ObsCatalog.CommandLine

open Sql (Database StoredRow)

variable {disk after : CatalogDisk} {e : Surroundings} {arguments : List String} {o : Options}
  {r : Request} {l next : Ledger} {home : Home} {d : Deployment} {now : Calendar.Instant}
  {last : Option Handle}

def Request.adds : Request → Option Table
  | .addSource _ _ => some .source
  | .addObservation _ _ _ _ _ => some .observation
  | .addFileObservation _ _ _ => some .observation
  | .init => none
  | .getSource _ => none
  | .findSource _ => none
  | .listSources _ => none
  | .getObservation _ => none
  | .listObservations _ _ => none
  | .stats => none

/-- A text tells the record in a row as JSON; reals are equal as numbers. The text of a source is
read back as the source, that of an observation as one with the same id, source and polarization
if its reals are finite. -/
inductive PrintsRow (db : Option Database) (row : StoredRow) : Table → String → Prop where
  | source {s : Source} {text : String} :
      Source.ofRow (selected db .source row) = .ok s → s.id = row.id →
      Json.Tells Source.IsObject s text → Source.ofJson text = .ok s →
      PrintsRow db row .source text
  | observation {o kept : Observation} {text : String} :
      Observation.ofRow (selected db .observation row) = .ok kept → o.id = row.id →
      Store.IsEntry o row.id kept → Json.Tells Observation.IsObject o text →
      (o.julianDate.isFinite → o.lengthDays.isFinite → o.ReadsBack text) →
      PrintsRow db row .observation text

/-- A request that adds a row to a table comes to an insertion into it, if to an operation. -/
inductive Inserts : Table → Operation → Prop where
  | source {s : Source} (draws : Sql.Draws) : s.createTime.wholeSecond = s.createTime →
      Inserts .source (.insertSource s draws)
  | observation (o : Observation) (policy : IdPolicy) (draws : Sql.Draws) :
      Inserts .observation (.insertObservation o policy draws)

theorem inserts_of_adds {m : Moment} {t : Table} {found : Option Operation} (adds : r.adds = some t)
    (asked : r.operation m d = .ok found) : ∃ op, found = some op ∧ Inserts t op := by
  cases r with
  | addSource name authenticator =>
    cases adds
    cases asked
    exact ⟨_, rfl, .source _ m.now.wholeSecond_wholeSecond⟩
  | addObservation sourceId julianDate polarization lengthDays id =>
    cases adds
    cases id <;> (cases asked; exact ⟨_, rfl, .observation _ _ _⟩)
  | addFileObservation sourceId file lengthDays =>
    cases adds
    rw [Request.operation] at asked
    split at asked
    · cases asked
    · cases asked
      exact ⟨_, rfl, .observation _ _ _⟩
  | _ => cases adds

/-- An insertion that succeeds gives its table one row, and what is told is the record in it. -/
theorem gains_of_inserts {t : Table} {op : Operation} {a : op.Result} (inserts : Inserts t op)
    (sound : l.Sound) (answers : l.Answers op (.ok a) next) {text : String}
    (told : op.Tells a text) :
    ∃ row, GainsRow t row (some l.database) (some next.database) ∧
      PrintsRow (some next.database) row t text := by
  cases inserts with
  | @source s draws whole =>
    change l.Meets (l.insertSource s) (.ok a) next at answers
    unfold Ledger.insertSource at answers
    split at answers
    · cases answers.1
    · next below =>
      obtain ⟨given, rfl⟩ := answers
      obtain rfl := Except.ok.inj given
      -- The text has the time as it was given, which is read as it is kept.
      have time : (s.kept (l.sources.last + 1)).createTime = s.createTime.kept := rfl
      have settled : s.createTime.settled = s.createTime.kept := by
        rw [← s.createTime.settled_wholeSecond, whole]
      have again : s.createTime.kept.settled = s.createTime.kept :=
        Calendar.Instant.settled_eq_self s.createTime.isSettled_kept
      obtain ⟨j, ⟨shown, read, rfl⟩, document⟩ := told
      have object : (s.kept (l.sources.last + 1)).IsObject _ :=
        ⟨shown, by rw [time, again, ← settled]; exact read, rfl⟩
      have readBack := object.ofJson document
      rw [time, again] at readBack
      exact ⟨_, l.gains_addSource sound s below, .source
        (Source.ofRow_row s.createTime.kept_kept) rfl ⟨_, object, document⟩ readBack⟩
  | observation o policy draws =>
    change l.Meets (l.insertObservation o policy draws) (.ok a) next at answers
    cases kept : l.insertObservation o policy draws with
    | error fault =>
      rw [kept] at answers
      cases answers.1
    | ok pair =>
      obtain ⟨id, after⟩ := pair
      rw [kept] at answers
      obtain ⟨given, rfl⟩ := answers
      obtain rfl := Except.ok.inj given
      obtain ⟨-, accepted, rfl⟩ := Ledger.insertObservation_eq_ok_iff.1 kept
      obtain ⟨julian, length, -, -⟩ := Ledger.refusal_eq_none_iff.1 accepted
      let shown : Observation := { o with id := a }
      have entry : Store.IsEntry shown a (o.kept a) :=
        Store.isEntry_kept (o := shown) a julian length
      refine ⟨_, Ledger.gains_addObservation accepted, .observation (o := shown)
        (o.kept a).ofRow_row rfl entry told fun finite finiteLength => ?_⟩
      obtain ⟨j, rfl, document⟩ := told
      exact shown.readsBack_isDocument finite finiteLength document

theorem Changes.rowsOf_found (changes : Changes disk after last d now l next home) {name : String}
    (other : name ≠ Schema.stampName) :
    rowsOf (home.found disk) name = rowsOf (some l.database) name := by
  rcases changes.found with found | ⟨none, rfl⟩
  · rw [found]
  · rw [none, Ledger.rowsOf_new d now other]
    rfl

theorem Changes.gains (changes : Changes disk after last d now l next home) {t : Table}
    {row : StoredRow} (gains : GainsRow t row (some l.database) (some next.database)) :
    GainsRow t row (home.found disk) (home.left after last) := by
  have own : t.name ≠ Schema.stampName := by cases t <;> decide
  rw [changes.left]
  refine ⟨?_, ?_, fun name differs other => ?_, fun db found => ?_⟩
  · rw [changes.rowsOf_found own]
    exact gains.added
  · rw [changes.rowsOf_found own]
    exact gains.fresh
  · rw [changes.rowsOf_found other]
    exact gains.others name differs other
  · rcases changes.found with same | ⟨none, -⟩
    · exact gains.stamp db (same.symm.trans found)
    · cases none.symm.trans found

theorem Changes.unchanged (changes : Changes disk after last d now l l home) {place : Place}
    {db : Database} (found : disk.databaseAt place = some db) :
    after.databaseAt place = some db := by
  by_cases here : home = .file place
  · subst here
    rcases changes.found with known | ⟨none, -⟩
    · exact changes.left.trans (known.symm.trans found)
    · cases none.symm.trans found
  · exact (changes.others (.file place) (Ne.symm here)).trans found

/-- Where nothing is done no table gains a row. -/
theorem Changes.no_gain (changes : Changes disk after last d now l l home) {t : Table}
    {row : StoredRow} (other : Home) :
    ¬ GainsRow t row (other.found disk) (other.left after last) := by
  intro gains
  have own : t.name ≠ Schema.stampName := by cases t <;> decide
  by_cases here : other = home
  · subst here
    exact gains.differs (by rw [changes.left, changes.rowsOf_found own])
  · exact gains.differs (by rw [changes.others other here])

theorem kept_of_failure (accounted : Accounted disk)
    (fails : (run e arguments disk).1.code ≠ 0) :
    (run e arguments disk).1.output = "" ∧ ∀ place db, disk.databaseAt place = some db →
      (run e arguments disk).2.databaseAt place = some db := by
  rcases run_cases e arguments disk with ⟨o, r, read⟩ | ⟨same, silent⟩
  · obtain ⟨after, ⟨fault, outcome, -, silent⟩ | ⟨-, -, done, -⟩⟩ := run_request read disk
    · refine ⟨silent, ?_⟩
      intro place db found
      rw [after]
      rcases course accounted e o r with ⟨-, same⟩ | ⟨l, next, home, changes, comes⟩
      · exact (same (.file place)).trans found
      · rw [outcome] at comes
        cases comes
        exact changes.unchanged found
    · exact absurd done fails
  · refine ⟨silent fails, ?_⟩
    intro place db found
    rw [same, found]

/-- The exit code tells whether one database has gained one row in a table, with no other row
changed, and what is printed is the record in the new row. -/
structure Reports (t : Table) (before left : Home → Option Database) (outcome : Outcome) :
    Prop where
  code : outcome.code = 0 ↔
    ∃ home row, GainsRow t row (before home) (left home) ∧
      ∀ other, other ≠ home → left other = before other
  output : ∀ home row, GainsRow t row (before home) (left home) →
    PrintsRow (left home) row t outcome.output

theorem reports_of_failure {t : Table} {before left : Home → Option Database} {outcome : Outcome}
    (fails : outcome.code ≠ 0) (none : ∀ home row, ¬ GainsRow t row (before home) (left home)) :
    Reports t before left outcome := by
  constructor
  · constructor
    · intro done
      exact absurd done fails
    · rintro ⟨home, row, gains, -⟩
      exact absurd gains (none home row)
  · intro home row gains
    exact absurd gains (none home row)

theorem reports_of_gain {t : Table} {before left : Home → Option Database} {outcome : Outcome}
    {row : StoredRow} (done : outcome.code = 0) (gains : GainsRow t row (before home) (left home))
    (others : ∀ other, other ≠ home → left other = before other)
    (prints : PrintsRow (left home) row t outcome.output) : Reports t before left outcome := by
  constructor
  · constructor
    · intro _
      exact ⟨home, row, gains, others⟩
    · intro _
      exact done
  · intro there found again
    -- No other database has changed, and this one has gained a single row, so it is that row.
    by_cases here : there = home
    · subst here
      obtain rfl := again.unique gains
      exact prints
    · exact absurd (by rw [others there here]) again.differs

theorem adds_reports (accounted : Accounted disk)
    (read : Invocation.read e.dataDirectory arguments = .ok ⟨o, .request r⟩) {t : Table}
    (adds : r.adds = some t) :
    Reports t (Home.found disk) (Home.left (run e arguments disk).2 (handleAtEnd e o r disk))
      (run e arguments disk).1 := by
  rw [(run_request read disk).1]
  rcases course accounted e o r with ⟨⟨fault, outcome⟩, same⟩ | ⟨l, next, home, changes, comes⟩
  · obtain ⟨code, -, -⟩ := run_of_error read (Prod.ext outcome rfl)
    exact reports_of_failure (by simp [code]) fun home row gains => gains.differs (by rw [same])
  cases outcome : (fulfil e o r disk).outcome with
  | error fault =>
    obtain ⟨code, -, -⟩ := run_of_error read (Prod.ext outcome rfl)
    rw [outcome] at comes
    cases comes
    exact reports_of_failure (by simp [code]) fun other row => changes.no_gain other
  | ok output =>
    obtain ⟨code, printed, -⟩ := run_of_ok read (Prod.ext outcome rfl)
    rw [outcome] at comes
    cases comes with
    | idle asked =>
      obtain ⟨op, none, -⟩ := inserts_of_adds adds asked
      cases none
    | answered asked answers told =>
      obtain ⟨_, same, inserts⟩ := inserts_of_adds adds asked
      cases same
      obtain ⟨row, gains, prints⟩ := gains_of_inserts inserts changes.before answers told
      refine reports_of_gain code (changes.gains gains) changes.others ?_
      rw [changes.left, printed]
      exact prints

end ObsCatalog.CommandLine
