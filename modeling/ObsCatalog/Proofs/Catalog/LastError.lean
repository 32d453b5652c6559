import ObsCatalog.Proofs.Catalog.Sequence

/-! The message that is remembered.

No failure has an empty message, so the message that a handle remembers, and that all its copies
share, tells whether the last operation failed. Records are read from rows after the message has
been settled; reading them never fails, because the rows of a ledger are those of its records.
-/

set_option autoImplicit false

namespace ObsCatalog

open Sql (Cell Connection Engine Select)

theorem Sql.Fault.message_ne_empty (fault : Sql.Fault) : fault.message ≠ "" := by
  cases fault with
  | raised message => exact message.property
  | _ =>
    unfold message
    simp +decide only [ne_eq, String.append_eq_empty_iff, and_false, false_and,
      not_false_eq_true]

theorem CatalogFault.missingId_message_ne_empty : missingId.message ≠ "" := by
  show "An explicit identifier is required for this insert" ≠ ""
  decide

/-- Rows among those of records are read as records. -/
theorem mapM_of_mem {α : Type} {row : α → Row} {ofRow : Row → Except CatalogFault α}
    {entries : List α} (reads : ∀ a ∈ entries, ofRow (row a) = .ok a) {rows : List Row}
    (known : ∀ r ∈ rows, r ∈ entries.map row) :
    ∃ records, rows.mapM ofRow = .ok records ∧ records.map row = rows := by
  induction rows with
  | nil => exact ⟨[], rfl, rfl⟩
  | cons r rest ih =>
    obtain ⟨a, entry, rfl⟩ := List.mem_map.1 (known r List.mem_cons_self)
    obtain ⟨records, read, rfl⟩ := ih fun r member => known r (List.mem_cons_of_mem _ member)
    refine ⟨a :: records, ?_, rfl⟩
    simp only [List.mapM_cons, reads a entry, read, bind, Except.bind]
    rfl

namespace Handle

variable {h : Handle} {l : Ledger} {α β : Type}

/-- Rows that are selected from a table of a ledger are those of its records. -/
theorem Holds.mem_rows (holds : h.Holds l) {engine : Engine} {t : Table} {q : Select}
    (own : q.table = t.name) {params : List Value} {rows : List Row}
    (done : (select engine t q params h).1 = .ok rows) :
    ∀ row ∈ rows, row ∈ l.rows t := by
  by_cases poisoned : h.isPoisoned
  · rw [select_of_poisoned poisoned] at done
    cases done
  have healthy : h.isPoisoned = false := Bool.eq_false_iff.2 poisoned
  cases ran : q.run h.connection.database (params.map Cell.ofValue) engine with
  | error fault =>
    rw [select_error t params healthy ran] at done
    cases done
  | ok selected =>
    rw [select_ok t params healthy ran] at done
    cases done
    obtain ⟨table, found, named, among, -, rfl⟩ := Select.rows_of_run ran
    rw [holds.database, own, l.table_database] at named
    cases named
    intro row member
    simp only [List.map_map, List.mem_map] at member
    obtain ⟨r, selected, rfl⟩ := member
    rw [← map_selectedRow]
    exact List.mem_map.2 ⟨r, among r selected, rfl⟩

theorem Holds.reads_sources (holds : h.Holds l) (sound : l.Sound) {engine : Engine} {q : Select}
    (own : q.table = Table.source.name) {params : List Value} {rows : List Row}
    (done : (select engine .source q params h).1 = .ok rows) :
    ∃ sources, rows.mapM Source.ofRow = .ok sources ∧ sources.map Source.row = rows :=
  mapM_of_mem (fun s entry => Source.ofRow_row (sound.whole s entry)) (holds.mem_rows own done)

theorem Holds.reads_observations (holds : h.Holds l) {engine : Engine} {q : Select}
    (own : q.table = Table.observation.name) {params : List Value} {rows : List Row}
    (done : (select engine .observation q params h).1 = .ok rows) :
    ∃ observations, rows.mapM Observation.ofRow = .ok observations ∧
      observations.map Observation.row = rows :=
  mapM_of_mem (fun o _ => o.ofRow_row) (holds.mem_rows own done)

inductive Remembers : Except CatalogFault α × Handle → Prop where
  | success {a : α} {after : Handle} : after.lastError = "" → Remembers (.ok a, after)
  | query {fault : Sql.Fault} {after : Handle} : after.lastError = fault.message →
      Remembers (.error (.query fault), after)
  | missingId {after : Handle} : after.lastError = CatalogFault.missingId.message →
      Remembers (.error .missingId, after)

theorem Remembers.eq_empty_iff {outcome : Except CatalogFault α × Handle}
    (remembers : Remembers outcome) :
    outcome.2.lastError = "" ↔ ∃ a, outcome.1 = .ok a := by
  cases remembers with
  | success message => exact ⟨fun _ => ⟨_, rfl⟩, fun _ => message⟩
  | query message =>
    exact ⟨fun empty => absurd (message.symm.trans empty) (Sql.Fault.message_ne_empty _), nofun⟩
  | missingId message =>
    exact ⟨fun empty => absurd (message.symm.trans empty)
      CatalogFault.missingId_message_ne_empty, nofun⟩

theorem remembers_run (healthy : h.isPoisoned = false) (statement : Connection.Statement α) :
    Remembers (run statement h) := by
  cases done : statement h.connection with
  | ok pair =>
    rw [run_ok healthy done]
    exact .success rfl
  | error fault =>
    rw [run_error healthy done]
    exact .query rfl

theorem remembers_insertion {expected : Except CatalogFault (Int64 × Ledger)}
    (faults : ∀ fault, expected = .error fault → fault = .missingId ∨ ∃ e, fault = .query e) :
    Remembers (h.insertion expected) := by
  cases expected with
  | ok pair => exact .success rfl
  | error fault =>
    rcases faults fault rfl with rfl | ⟨e, rfl⟩
    · exact .missingId rfl
    · exact .query rfl

/-- Reading what has been found leaves the message as it is, so it must not fail. -/
theorem Remembers.reading {action : Action α} (remembers : Remembers (action h))
    {read : α → Except CatalogFault β}
    (reads : ∀ a, (action h).1 = .ok a → ∃ b, read a = .ok b) :
    Remembers (reading action read h) := by
  obtain ⟨result, after, done⟩ : ∃ result after, action h = (result, after) := ⟨_, _, rfl⟩
  rw [done] at remembers reads
  cases remembers with
  | success message =>
    obtain ⟨b, read⟩ := reads _ rfl
    rw [reading_ok done, read]
    exact .success message
  | query message =>
    rw [reading_error done]
    exact .query message
  | missingId message =>
    rw [reading_error done]
    exact .missingId message

theorem Holds.remembers (holds : h.Holds l) (sound : l.Sound) (healthy : h.isPoisoned = false)
    (disk : CatalogDisk) (op : Operation) : Remembers (op.action disk h) := by
  have selects (engine : Engine) (t : Table) (q : Select) (params : List Value) :
      Remembers (select engine t q params h) := remembers_run healthy _
  -- A statement that fails is remembered as such. What is left to show is that reading the rows
  -- that were found never fails, for then nothing would be remembered.
  cases op with
  | insertSource s draws => exact remembers_run healthy _
  | insertObservation o policy draws =>
    show Remembers (Handle.insertObservation o policy draws h)
    rw [holds.insertObservation healthy o policy draws]
    refine remembers_insertion fun fault failed => ?_
    exact (Ledger.of_insertObservation_error failed).imp (·.2.2) (·.2)
  | getSource id =>
    show Remembers (Handle.getSource id h)
    rw [holds.getSource sound healthy]
    exact .success rfl
  | getObservation id =>
    show Remembers (Handle.getObservation id h)
    rw [holds.getObservation healthy]
    exact .success rfl
  | findSource authenticator =>
    have selects := selects .standard .source findingSource [.text authenticator]
    refine selects.reading fun rows done => ?_
    cases rows with
    | nil => exact ⟨none, rfl⟩
    | cons row rest =>
      obtain ⟨s, entry, rfl⟩ := List.mem_map.1 (holds.mem_rows rfl done row List.mem_cons_self)
      refine ⟨some s, ?_⟩
      simp only [List.head?_cons, Option.mapM_some, Source.ofRow_row (sound.whole s entry)]
      rfl
  | listSources filter engine =>
    refine (selects engine .source (listing .source filter) _).reading fun rows done => ?_
    obtain ⟨sources, read, -⟩ := holds.reads_sources sound rfl done
    exact ⟨sources, read⟩
  | listObservations filter engine =>
    refine (selects engine .observation (listing .observation filter) _).reading fun rows done => ?_
    obtain ⟨observations, read, -⟩ := holds.reads_observations rfl done
    exact ⟨observations, read⟩
  | enumerate t filter engine => exact selects engine t _ _
  | lookup t id =>
    show Remembers (Handle.lookup t id h)
    rw [holds.lookup healthy]
    exact .success rfl
  | statistics =>
    show Remembers (Handle.statistics _ h)
    rw [holds.statistics healthy]
    exact .success rfl

end Handle

namespace Session

open Handle

variable {d : Deployment} {home : Home} {start s : Session} {h : Handle}

/-- At any time what a healthy handle remembers after an operation tells its outcome: nothing
if it succeeded, and otherwise the text of the failure, without what is put before it when the
failure is one of a statement. No operation fails in any other way. Whatever rows are selected
are read as records, which have these very rows. -/
theorem Fresh.remembers_outcome (fresh : Fresh d home start) (run : Run home start s)
    (among : h ∈ s.handles) (healthy : h.isPoisoned = false) :
    (∀ op result after written,
      h.perform (Operation.action s.disk op) s.disk = (result, after, written) →
        (after.lastError = "" ↔ ∃ a, result = .ok a) ∧
        ∀ fault, result = .error fault →
          (∃ e, fault = .query e ∧ after.lastError = e.message ∧
            fault.message = "Query failed: " ++ after.lastError) ∨
          fault = .missingId ∧ after.lastError = fault.message) ∧
    (∀ engine q params rows, q.table = Table.source.name →
      (h.perform (select engine .source q params) s.disk).1 = .ok rows →
        ∃ sources, rows.mapM Source.ofRow = .ok sources ∧ sources.map Source.row = rows) ∧
    ∀ engine q params rows, q.table = Table.observation.name →
      (h.perform (select engine .observation q params) s.disk).1 = .ok rows →
        ∃ observations, rows.mapM Observation.ofRow = .ok observations ∧
          observations.map Observation.row = rows := by
  obtain ⟨now, keeps, -⟩ := fresh.keeps
  obtain ⟨l, keepsNow, -⟩ := run.keeps keeps
  obtain ⟨holds, follows⟩ := (keepsNow.serves h among).refreshed
  have sound := keepsNow.sound
  refine ⟨fun op result after written performed => ?_,
    fun _ q params rows own done => holds.reads_sources sound own done,
    fun _ q params rows own done => holds.reads_observations own done⟩
  have remembers := holds.remembers sound (follows.isPoisoned.trans healthy) s.disk op
  obtain ⟨same, rest⟩ := Prod.mk.inj performed
  obtain ⟨kept, -⟩ := Prod.mk.inj rest
  have remembers : Remembers (result, after) := by
    rw [← same, ← kept]
    exact remembers
  refine ⟨remembers.eq_empty_iff, ?_⟩
  rintro fault rfl
  cases remembers with
  | query message =>
    exact .inl ⟨_, rfl, message, congrArg ("Query failed: " ++ ·) message.symm⟩
  | missingId message => exact .inr ⟨rfl, message⟩

/-- A filter on a column that is not there leaves its failure behind, and the next operation
takes it away. -/
theorem remembers_outcome_filter :
    ∃ (s : Session) (h after : Handle) (f : Filter) (fault : Sql.Fault),
      Fresh .librarian .memory s ∧ s.handles = [h] ∧
      h.perform (Handle.listSources (some f)) s.disk = (.error (.query fault), after, s.disk) ∧
      after.lastError = fault.message ∧ after.lastError ≠ "" ∧
      (after.perform (Handle.listSources none) s.disk).2.1.lastError = "" := by
  let disk : CatalogDisk := ⟨[], []⟩
  let h := made .librarian memoryPath ⟨0, 0, by decide, by decide, by decide, by decide⟩
  let f : Filter := ⟨"color = ?", [.text "red"]⟩
  have fresh : Fresh .librarian .memory ⟨[h], disk⟩ := .memory (inMemory_eq _ _)
  have holds : h.Holds _ := holds_made _ _ _
  obtain ⟨fault, ran⟩ : ∃ fault, (listing .source (some f)).run h.connection.database
      ((filterParams (some f)).map Cell.ofValue) = .error fault := by
    have refused : ((listing .source (some f)).run h.connection.database
        ((filterParams (some f)).map Cell.ofValue)).toOption.isNone := by decide +kernel
    cases found : (listing .source (some f)).run h.connection.database
        ((filterParams (some f)).map Cell.ofValue) with
    | ok selected =>
      rw [found] at refused
      cases refused
    | error fault => exact ⟨fault, rfl⟩
  have failed : Handle.listSources (some f) .standard h = _ :=
    reading_error (select_error .source (filterParams (some f)) rfl ran)
  have performed := perform_of_private rfl disk failed ⟨rfl, rfl⟩
  have first := (Fresh.remembers_outcome fresh .refl List.mem_cons_self rfl).1
    (.listSources (some f)) _ _ _ performed
  have listed := perform_of_private rfl disk
    ((holds.withError fault.message).listSources (Ledger.sound_new _ _) rfl .standard) ⟨rfl, rfl⟩
  refine ⟨_, h, _, f, fault, fresh, rfl, performed, rfl, fun empty => ?_, ?_⟩
  · obtain ⟨sources, done⟩ := first.1.1 empty
    cases done
  · rw [listed]

end Session

end ObsCatalog
