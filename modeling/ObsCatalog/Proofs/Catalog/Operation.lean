import ObsCatalog.Catalog.File
import ObsCatalog.Proofs.Catalog.Records

/-! The operations of a catalog.

An operation on the handle of a ledger answers from the ledger and leaves the handle of
the ledger that comes of it. Only insertions change a ledger. What is read under a filter is
left open here.
-/

set_option autoImplicit false

namespace ObsCatalog

open Sql (Connection)

/-- An operation with its arguments. An insertion also has the numbers that are drawn for it, in
case that its id is drawn at random, and a list the engine for the condition of its filter. -/
inductive Operation where
  | insertSource (s : Source) (draws : Sql.Draws := .inOrder)
  | insertObservation (o : Observation) (policy : IdPolicy) (draws : Sql.Draws := .inOrder)
  | getSource (id : Int64)
  | getObservation (id : Int64)
  | findSource (authenticator : String)
  | listSources (filter : Option Filter) (engine : Sql.Engine := .standard)
  | listObservations (filter : Option Filter) (engine : Sql.Engine := .standard)
  | enumerate (t : Table) (filter : Option Filter) (engine : Sql.Engine := .standard)
  | lookup (t : Table) (id : Int64)
  | statistics

namespace Operation

def Result : Operation → Type
  | .insertSource _ _ => Int64
  | .insertObservation _ _ _ => Int64
  | .getSource _ => Option Source
  | .getObservation _ => Option Observation
  | .findSource _ => Option Source
  | .listSources _ _ => List Source
  | .listObservations _ _ => List Observation
  | .enumerate _ _ _ => List Row
  | .lookup _ _ => Option Row
  | .statistics => Statistics

/-- The operation inserts nothing. -/
def isReading : Operation → Bool
  | .insertSource _ _ => false
  | .insertObservation _ _ _ => false
  | _ => true

/-- The action of an operation; statistics look at the disk for the size of the file. -/
def action (disk : CatalogDisk) : (op : Operation) → Action op.Result
  | .insertSource s draws => Handle.insertSource s draws
  | .insertObservation o policy draws => Handle.insertObservation o policy draws
  | .getSource id => Handle.getSource id
  | .getObservation id => Handle.getObservation id
  | .findSource authenticator => Handle.findSource authenticator
  | .listSources filter engine => Handle.listSources filter engine
  | .listObservations filter engine => Handle.listObservations filter engine
  | .enumerate t filter engine => Handle.enumerate t filter engine
  | .lookup t id => Handle.lookup t id
  | .statistics => fun h => h.statisticsOn disk h

end Operation

namespace Ledger

/-- What was expected has come about: a result with the ledger that it leaves, or a failure
that leaves the ledger as it was. -/
def Meets {α : Type} (l : Ledger) (expected : Except CatalogFault (α × Ledger))
    (result : Except CatalogFault α) (after : Ledger) : Prop :=
  match expected with
  | .ok (a, next) => result = .ok a ∧ after = next
  | .error fault => result = .error fault ∧ after = l

/-- What an operation may answer on a ledger, and what it makes of the ledger. -/
def Answers (l : Ledger) :
    (op : Operation) → Except CatalogFault op.Result → Ledger → Prop
  | .insertSource s _, result, after => l.Meets (l.insertSource s) result after
  | .insertObservation o policy draws, result, after =>
    l.Meets (l.insertObservation o policy draws) result after
  | .getSource id, result, after => result = .ok (l.sources.get? id) ∧ after = l
  | .getObservation id, result, after => result = .ok (l.observations.get? id) ∧ after = l
  | .findSource _, _, after => after = l
  | .listSources none _, result, after => result = .ok l.sources.entries ∧ after = l
  | .listSources (some _) _, _, after => after = l
  | .listObservations none _, result, after => result = .ok l.observations.entries ∧ after = l
  | .listObservations (some _) _, _, after => after = l
  | .enumerate t none _, result, after => result = .ok (l.rows t) ∧ after = l
  | .enumerate _ (some _) _, _, after => after = l
  | .lookup t id, result, after => result = .ok (l.row? id t) ∧ after = l
  | .statistics, result, after =>
    (∃ fileBytes, result = .ok ⟨l.deployment, l.sources.entries.length,
      l.observations.entries.length, fileBytes⟩) ∧ after = l

/-- Only insertions change a ledger. -/
theorem eq_of_answers_reading {l next : Ledger} {op : Operation}
    {result : Except CatalogFault op.Result} (reads : op.isReading = true)
    (answers : l.Answers op result next) : next = l := by
  cases op with
  | insertSource s draws => cases reads
  | insertObservation o policy draws => cases reads
  | getSource id => exact answers.2
  | getObservation id => exact answers.2
  | findSource authenticator => exact answers
  | listSources filter engine =>
    cases filter with
    | none => exact answers.2
    | some filter => exact answers
  | listObservations filter engine =>
    cases filter with
    | none => exact answers.2
    | some filter => exact answers
  | enumerate t filter engine =>
    cases filter with
    | none => exact answers.2
    | some filter => exact answers
  | lookup t id => exact answers.2
  | statistics => exact answers.2

/-- An operation that fails leaves the ledger as it was. -/
theorem eq_of_answers_error {l next : Ledger} {op : Operation} {fault : CatalogFault}
    (answers : l.Answers op (.error fault) next) : next = l := by
  have met {α : Type} {expected : Except CatalogFault (α × Ledger)}
      (meets : l.Meets expected (.error fault) next) : next = l := by
    cases expected with
    | error reason => exact meets.2
    | ok pair => cases meets.1
  cases op with
  | insertSource s draws => exact met answers
  | insertObservation o policy draws => exact met answers
  | _ => exact eq_of_answers_reading rfl answers

structure Grows (l after : Ledger) : Prop where
  deployment : after.deployment = l.deployment
  sources : l.sources.last ≤ after.sources.last
  observations : l.observations.last ≤ after.observations.last

theorem Grows.refl (l : Ledger) : l.Grows l := ⟨rfl, Int64.le_refl _, Int64.le_refl _⟩

theorem Grows.trans {first second third : Ledger} (early : first.Grows second)
    (late : second.Grows third) : first.Grows third :=
  ⟨late.deployment.trans early.deployment, Int64.le_trans early.sources late.sources,
    Int64.le_trans early.observations late.observations⟩

def last (l : Ledger) : Table → Int64
  | .source => l.sources.last
  | .observation => l.observations.last

theorem Grows.last {l after : Ledger} (grows : l.Grows after) (t : Table) :
    l.last t ≤ after.last t := by
  cases t with
  | source => exact grows.sources
  | observation => exact grows.observations

/-- The ledger after one step: an id that has been given in it is that of a row. -/
structure Moves (l after : Ledger) : Prop extends l.Grows after where
  given : ∀ t, after.last t = l.last t ∨ (after.table t).hasRow (after.last t)

theorem Moves.refl (l : Ledger) : l.Moves l := ⟨.refl l, fun _ => .inl rfl⟩

variable {l after : Ledger}

theorem moves_of_insertSource {s : Source} {id : Int64}
    (kept : l.insertSource s = .ok (id, after)) : l.Moves after := by
  unfold insertSource at kept
  split at kept
  · cases kept
  · cases kept
    refine ⟨⟨rfl, l.sources.le_last_add _, Int64.le_refl _⟩, fun t => ?_⟩
    cases t with
    | source => exact l.sources.given_add _
    | observation => exact .inl rfl

theorem Sound.of_insertSource (sound : l.Sound) {s : Source} {id : Int64}
    (kept : l.insertSource s = .ok (id, after)) : after.Sound := by
  unfold insertSource at kept
  split at kept
  · cases kept
  · next below =>
    cases kept
    exact sound.addSource s below

/-- An observation is kept under the id that it is given unless something speaks against it. -/
theorem insertObservation_eq_ok_iff {o : Observation} {policy : IdPolicy} {draws : Sql.Draws}
    {id : Int64} :
    l.insertObservation o policy draws = .ok (id, after) ↔
      l.observationId o policy draws = .ok id ∧ l.refusal o id = none ∧
        after = l.addObservation o id := by
  constructor
  · intro kept
    unfold insertObservation at kept
    split at kept
    · cases kept
    · next given =>
      unfold keep at kept
      split at kept
      · cases kept
      · next accepted =>
        cases kept
        exact ⟨given, accepted, rfl⟩
  · rintro ⟨given, accepted, rfl⟩
    simp only [insertObservation, given, keep, accepted]
    rfl

/-- An observation that is not kept has no id, or the statement for it fails. -/
theorem of_insertObservation_error {o : Observation} {policy : IdPolicy} {draws : Sql.Draws}
    {fault : CatalogFault}
    (failed : l.insertObservation o policy draws = .error fault) :
    (policy = .assigned ∧ o.id ≤ 0 ∧ fault = .missingId) ∨
      ¬ (policy = .assigned ∧ o.id ≤ 0) ∧ ∃ e, fault = .query e := by
  have refused {id : Int64} (failed : (l.keep o id).mapError .query = .error fault) :
      ∃ e, fault = .query e := by
    cases kept : l.keep o id with
    | ok pair => simp [kept, Except.mapError] at failed
    | error e =>
      simp only [kept, Except.mapError, Except.error.injEq] at failed
      exact ⟨e, failed.symm⟩
  unfold insertObservation at failed
  cases policy with
  | assigned =>
    by_cases missing : o.id ≤ 0
    · simp only [observationId, if_pos missing, Except.error.injEq] at failed
      exact .inl ⟨rfl, missing, failed.symm⟩
    · simp only [observationId, if_neg missing] at failed
      exact .inr ⟨fun unassigned => missing unassigned.2, refused failed⟩
  | generated =>
    refine .inr ⟨by rintro ⟨⟨⟩, -⟩, ?_⟩
    cases next : l.observationTable.nextId draws with
    | error e =>
      simp only [observationId, next, Except.mapError, Except.error.injEq] at failed
      exact ⟨e, failed.symm⟩
    | ok id =>
      simp only [observationId, next, Except.mapError] at failed
      exact refused failed

theorem moves_of_insertObservation {o : Observation} {policy : IdPolicy} {draws : Sql.Draws}
    {id : Int64}
    (kept : l.insertObservation o policy draws = .ok (id, after)) : l.Moves after := by
  obtain ⟨-, -, rfl⟩ := insertObservation_eq_ok_iff.1 kept
  refine ⟨⟨rfl, Int64.le_refl _, l.observations.le_last_add _⟩, fun t => ?_⟩
  cases t with
  | source => exact .inl rfl
  | observation => exact l.observations.given_add _

theorem Sound.of_insertObservation (sound : l.Sound) {o : Observation} {policy : IdPolicy}
    {draws : Sql.Draws} {id : Int64}
    (kept : l.insertObservation o policy draws = .ok (id, after)) : after.Sound := by
  obtain ⟨-, accepted, rfl⟩ := insertObservation_eq_ok_iff.1 kept
  exact sound.addObservation o accepted

theorem of_delete {t : Table} {id : Int64} {count : Nat}
    (deleted : l.delete t id = .ok (count, after)) :
    after = l ∨
      (l.remove id t).database.isReferred t.name id = false ∧ after = l.remove id t := by
  unfold delete at deleted
  split at deleted
  · split at deleted
    · cases deleted
    · next unreferred =>
      cases deleted
      exact .inr ⟨Bool.eq_false_iff.2 unreferred, rfl⟩
  · cases deleted
    exact .inl rfl

theorem moves_of_delete {t : Table} {id : Int64} {count : Nat}
    (deleted : l.delete t id = .ok (count, after)) : l.Moves after := by
  rcases of_delete deleted with rfl | ⟨-, rfl⟩
  · exact .refl after
  · cases t <;> exact ⟨⟨rfl, Int64.le_refl _, Int64.le_refl _⟩, fun u => .inl (by cases u <;> rfl)⟩

theorem Sound.of_delete (sound : l.Sound) {t : Table} {id : Int64} {count : Nat}
    (deleted : l.delete t id = .ok (count, after)) : after.Sound := by
  rcases Ledger.of_delete deleted with rfl | ⟨unreferred, rfl⟩
  · exact sound
  · exact sound.remove unreferred

end Ledger

namespace Handle

variable {h : Handle} {l : Ledger}

/-- A handle on the same database, and no more broken than before. -/
structure Follows (h after : Handle) : Prop where
  path : after.path = h.path
  isPoisoned : after.isPoisoned = h.isPoisoned

theorem Holds.withError (holds : h.Holds l) (message : String) :
    ({ h with lastError := message } : Handle).Holds l :=
  ⟨holds.deployment, holds.database, holds.enforced, holds.writable⟩

/-- An action that changes nothing but the message that is remembered. -/
def Reads {α : Type} (action : Action α) : Prop :=
  ∀ h, ∃ message, (action h).2 = { h with lastError := message }

theorem execute_of_poisoned {α : Type} (poisoned : h.isPoisoned = true)
    (task : Connection → Except CatalogFault (α × Connection)) :
    execute task h = (.error Handle.poisoned, h) := by
  simp only [execute, if_pos poisoned]

theorem run_of_poisoned {α : Type} (poisoned : h.isPoisoned = true)
    (statement : Connection.Statement α) : run statement h = (.error Handle.poisoned, h) :=
  execute_of_poisoned poisoned _

theorem select_of_poisoned (poisoned : h.isPoisoned = true) (engine : Sql.Engine) (t : Table)
    (s : Sql.Select) (params : List Value) :
    select engine t s params h = (.error Handle.poisoned, h) :=
  run_of_poisoned poisoned _

theorem select_of_ok {engine : Sql.Engine} {t : Table} {q : Sql.Select} {params : List Value}
    {rows : List Row} (done : (select engine t q params h).1 = .ok rows) :
    h.isPoisoned = false ∧ ∃ selected,
      q.run h.connection.database (params.map Sql.Cell.ofValue) engine = .ok selected ∧
        rows = selected.rows.map fun cells => ⟨t, selected.columns, cells.map Sql.Cell.value⟩ := by
  cases healthy : h.isPoisoned with
  | true =>
    rw [select_of_poisoned healthy] at done
    cases done
  | false =>
    cases found : q.run h.connection.database (params.map Sql.Cell.ofValue) engine with
    | ok selected =>
      rw [select_ok t params healthy found] at done
      cases done
      exact ⟨rfl, selected, rfl, rfl⟩
    | error fault =>
      rw [select_error t params healthy found] at done
      cases done

theorem reads_select (engine : Sql.Engine) (t : Table) (s : Sql.Select) (params : List Value) :
    Reads (select engine t s params) := by
  intro h
  by_cases poisoned : h.isPoisoned
  · exact ⟨h.lastError, by rw [select_of_poisoned poisoned]⟩
  · have healthy : h.isPoisoned = false := Bool.eq_false_iff.2 poisoned
    cases found : s.run h.connection.database (params.map Sql.Cell.ofValue) engine with
    | ok selected => exact ⟨"", by rw [select_ok t params healthy found]⟩
    | error fault => exact ⟨fault.message, by rw [select_error t params healthy found]⟩

theorem Reads.reading {α β : Type} {action : Action α} (reads : Reads action)
    (read : α → Except CatalogFault β) : Reads (reading action read) := by
  intro h
  obtain ⟨message, left⟩ := reads h
  refine ⟨message, ?_⟩
  unfold Handle.reading
  split
  · next done =>
    rw [done] at left
    exact left
  · next failed =>
    rw [failed] at left
    exact left

theorem reading_error {α β : Type} {action : Action α} {read : α → Except CatalogFault β}
    {fault : CatalogFault} {after : Handle} (failed : action h = (.error fault, after)) :
    reading action read h = (.error fault, after) := by
  simp only [reading, failed]

theorem action_of_poisoned (poisoned : h.isPoisoned = true) (disk : CatalogDisk)
    (op : Operation) : op.action disk h = (.error Handle.poisoned, h) := by
  have lookup (t : Table) (id : Int64) : lookup t id h = (.error Handle.poisoned, h) := by
    simp only [Handle.lookup, select_of_poisoned poisoned]
  cases op with
  | insertSource s draws => exact run_of_poisoned poisoned _
  | insertObservation o policy draws =>
    cases policy with
    | assigned =>
      show Handle.insertObservation o .assigned draws h = _
      unfold Handle.insertObservation
      exact execute_of_poisoned poisoned _
    | generated => exact run_of_poisoned poisoned _
  | getSource id => exact reading_error (lookup .source id)
  | getObservation id => exact reading_error (lookup .observation id)
  | findSource authenticator => exact reading_error (select_of_poisoned poisoned _ _ _ _)
  | listSources filter engine => exact reading_error (select_of_poisoned poisoned _ _ _ _)
  | listObservations filter engine => exact reading_error (select_of_poisoned poisoned _ _ _ _)
  | enumerate t filter engine => exact select_of_poisoned poisoned _ _ _ _
  | lookup t id => exact lookup t id
  | statistics =>
    show Handle.statistics _ h = _
    unfold Handle.statistics
    exact run_of_poisoned poisoned _

/-- An operation answers from a ledger, and what it leaves is sound. -/
structure Operates (h : Handle) (l : Ledger) (op : Operation)
    (outcome : Except CatalogFault op.Result × Handle) (after : Ledger) : Prop where
  sound : after.Sound
  moves : l.Moves after
  answers : l.Answers op outcome.1 after
  holds : outcome.2.Holds after
  follows : h.Follows outcome.2

theorem Holds.reads (holds : h.Holds l) (sound : l.Sound) {op : Operation} {disk : CatalogDisk}
    (left : ∃ message, (op.action disk h).2 = { h with lastError := message })
    (answers : l.Answers op (op.action disk h).1 l) :
    ∃ after, h.Operates l op (op.action disk h) after := by
  obtain ⟨message, left⟩ := left
  refine ⟨l, sound, .refl l, answers, ?_, ?_, ?_⟩
  · rw [left]
    exact holds.withError message
  · rw [left]
  · rw [left]

theorem Holds.reads_ok (holds : h.Holds l) (sound : l.Sound) {op : Operation} {disk : CatalogDisk}
    {a : op.Result} (done : op.action disk h = (.ok a, { h with lastError := "" }))
    (answers : l.Answers op (.ok a) l) : ∃ after, h.Operates l op (op.action disk h) after := by
  refine holds.reads sound ⟨"", ?_⟩ ?_
  · rw [done]
  · rw [done]
    exact answers

theorem Holds.inserts (holds : h.Holds l) (sound : l.Sound)
    {expected : Except CatalogFault (Int64 × Ledger)}
    (kept : ∀ id after, expected = .ok (id, after) → after.Sound ∧ l.Moves after) :
    ∃ after, after.Sound ∧ l.Moves after ∧ l.Meets expected (h.insertion expected).1 after ∧
      (h.insertion expected).2.Holds after ∧ h.Follows (h.insertion expected).2 := by
  cases expected with
  | error fault => exact ⟨l, sound, .refl l, ⟨rfl, rfl⟩, holds.withError _, rfl, rfl⟩
  | ok pair =>
    obtain ⟨id, after⟩ := pair
    obtain ⟨sound, moves⟩ := kept id after rfl
    exact ⟨after, sound, moves, ⟨rfl, rfl⟩,
      ⟨holds.deployment.trans moves.deployment.symm, rfl, holds.enforced, holds.writable⟩, rfl, rfl⟩

/-- An operation answers from the ledger and leaves the handle with what comes of it. -/
theorem Holds.operate (holds : h.Holds l) (sound : l.Sound) (healthy : h.isPoisoned = false)
    (disk : CatalogDisk) (op : Operation) :
    ∃ after, h.Operates l op (op.action disk h) after := by
  -- An insertion leaves the ledger that comes of it; all else leaves the one that was there.
  cases op with
  | insertSource s draws =>
    have done : (Operation.insertSource s draws).action disk h = h.insertion (l.insertSource s) :=
      holds.insertSource sound healthy s draws
    rw [done]
    obtain ⟨after, sound, moves, meets, holds, follows⟩ := holds.inserts sound
      fun id after kept => ⟨sound.of_insertSource kept, Ledger.moves_of_insertSource kept⟩
    exact ⟨after, sound, moves, meets, holds, follows⟩
  | insertObservation o policy draws =>
    have done : (Operation.insertObservation o policy draws).action disk h =
        h.insertion (l.insertObservation o policy draws) :=
      holds.insertObservation healthy o policy draws
    rw [done]
    obtain ⟨after, sound, moves, meets, holds, follows⟩ := holds.inserts sound
      fun id after kept => ⟨sound.of_insertObservation kept, Ledger.moves_of_insertObservation kept⟩
    exact ⟨after, sound, moves, meets, holds, follows⟩
  | getSource id => exact holds.reads_ok sound (holds.getSource sound healthy id) ⟨rfl, rfl⟩
  | getObservation id => exact holds.reads_ok sound (holds.getObservation healthy id) ⟨rfl, rfl⟩
  | findSource authenticator =>
    exact holds.reads sound ((reads_select _ _ _ _).reading _ h) rfl
  | listSources filter engine =>
    cases filter with
    | none => exact holds.reads_ok sound (holds.listSources sound healthy engine) ⟨rfl, rfl⟩
    | some filter => exact holds.reads sound ((reads_select _ _ _ _).reading _ h) rfl
  | listObservations filter engine =>
    cases filter with
    | none => exact holds.reads_ok sound (holds.listObservations healthy engine) ⟨rfl, rfl⟩
    | some filter => exact holds.reads sound ((reads_select _ _ _ _).reading _ h) rfl
  | enumerate t filter engine =>
    cases filter with
    | none => exact holds.reads_ok sound (holds.enumerate healthy t engine) ⟨rfl, rfl⟩
    | some filter => exact holds.reads sound (reads_select _ _ _ _ h) rfl
  | lookup t id => exact holds.reads_ok sound (holds.lookup healthy t id) ⟨rfl, rfl⟩
  | statistics => exact holds.reads_ok sound (holds.statistics healthy _) ⟨⟨_, rfl⟩, rfl⟩

end Handle

end ObsCatalog
