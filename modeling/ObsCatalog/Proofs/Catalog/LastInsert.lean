import ObsCatalog.Proofs.Catalog.Sequence

/-! The id of the last row.

A handle shares one id with all its copies, and both tables and both ways to get an id set it. An
insertion that succeeds leaves the id that it gives, be it generated or that of the record. All
else, failures and readings among it, leaves the id that was there.
-/

set_option autoImplicit false

namespace ObsCatalog

open Sql (Connection)

def Operation.given : (op : Operation) → Except CatalogFault op.Result → List Int64
  | .insertSource _ _, .ok id => [id]
  | .insertObservation _ _ _, .ok id => [id]
  | _, _ => []

theorem Operation.given_error (op : Operation) (fault : CatalogFault) :
    op.given (.error fault) = [] := by
  cases op <;> rfl

theorem Operation.given_of_isReading {op : Operation} (reads : op.isReading = true)
    (result : Except CatalogFault op.Result) : op.given result = [] := by
  cases op with
  | insertSource s draws => cases reads
  | insertObservation o policy draws => cases reads
  | _ => rfl

namespace Handle

variable {h : Handle} {α : Type}

theorem lastInsertId_of_reads {action : Action α} (reads : Reads action) (h : Handle) :
    (action h).2.lastInsertId = h.lastInsertId := by
  obtain ⟨message, left⟩ := reads h
  rw [left]
  rfl

/-- A statement that leaves the connection as it is changes no more than the message. -/
theorem reads_run {statement : Connection.Statement α}
    (same : ∀ c a after, statement c = .ok (a, after) → after = c) : Reads (run statement) := by
  intro h
  by_cases poisoned : h.isPoisoned
  · exact ⟨h.lastError, by rw [run_of_poisoned poisoned]⟩
  · have healthy : h.isPoisoned = false := Bool.eq_false_iff.2 poisoned
    cases done : statement h.connection with
    | ok pair =>
      obtain ⟨a, after⟩ := pair
      rw [run_ok healthy done, same _ a after done]
      exact ⟨"", rfl⟩
    | error fault => exact ⟨fault.message, by rw [run_error healthy done]⟩

theorem reads_lookup (t : Table) (id : Int64) : Reads (lookup t id) := by
  intro h
  obtain ⟨message, left⟩ := reads_select .standard t (lookingUp t) [.integer id] h
  refine ⟨message, ?_⟩
  unfold lookup
  split
  · next done =>
    rw [done] at left
    exact left
  · next failed =>
    rw [failed] at left
    exact left

theorem reads_statistics (fileBytes : Nat) : Reads (statistics fileBytes) := by
  intro h
  refine reads_run (fun c a after done => ?_) h
  simp only [Connection.count, bind, Except.bind, pure, Except.pure] at done
  cases sources : c.database.table Table.source.name with
  | error fault => simp [sources] at done
  | ok table =>
    cases observations : c.database.table Table.observation.name with
    | error fault => simp [sources, observations] at done
    | ok other =>
      simp only [sources, observations, Except.ok.injEq, Prod.mk.injEq] at done
      exact done.2.symm

theorem reads_of_isReading {op : Operation} (reading : op.isReading = true) (disk : CatalogDisk) :
    Reads (op.action disk) := by
  cases op with
  | insertSource s draws => cases reading
  | insertObservation o policy draws => cases reading
  | getSource id => exact (reads_lookup .source id).reading _
  | getObservation id => exact (reads_lookup .observation id).reading _
  | findSource authenticator => exact (reads_select _ _ _ _).reading _
  | listSources filter engine => exact (reads_select _ _ _ _).reading _
  | listObservations filter engine => exact (reads_select _ _ _ _).reading _
  | enumerate t filter engine => exact reads_select _ _ _ _
  | lookup t id => exact reads_lookup t id
  | statistics => exact fun h => reads_statistics _ h

theorem lastInsertId_of_failing {task : Connection → Except CatalogFault (α × Connection)}
    {fault : CatalogFault} (failed : (execute task h).1 = .error fault) :
    (execute task h).2.lastInsertId = h.lastInsertId := by
  by_cases poisoned : h.isPoisoned
  · rw [execute_of_poisoned poisoned]
  · have healthy : h.isPoisoned = false := Bool.eq_false_iff.2 poisoned
    cases done : task h.connection with
    | ok pair => simp [execute_ok healthy done] at failed
    | error fault =>
      rw [execute_error healthy done]
      rfl

theorem Holds.lastInsertId_delete {l : Ledger} (holds : h.Holds l) (t : Table) (id : Int64) :
    (run (Connection.delete t.name id) h).2.lastInsertId = h.lastInsertId := by
  by_cases poisoned : h.isPoisoned
  · rw [run_of_poisoned poisoned]
  · rw [holds.delete (Bool.eq_false_iff.2 poisoned)]
    cases l.delete t id <;> rfl

/-- An operation leaves the id that it has given, if it has given one. -/
theorem Holds.lastInsertId_operate {l : Ledger} (holds : h.Holds l) (sound : l.Sound)
    (healthy : h.isPoisoned = false) (disk : CatalogDisk) (op : Operation) :
    (op.action disk h).2.lastInsertId =
      (op.given (op.action disk h).1).getLast?.getD h.lastInsertId := by
  by_cases reading : op.isReading
  · rw [op.given_of_isReading reading]
    exact lastInsertId_of_reads (reads_of_isReading reading disk) h
  cases op with
  | insertSource s draws =>
    have done : (Operation.insertSource s draws).action disk h = h.insertion (l.insertSource s) :=
      holds.insertSource sound healthy s draws
    rw [done]
    cases l.insertSource s <;> rfl
  | insertObservation o policy draws =>
    have done : (Operation.insertObservation o policy draws).action disk h =
        h.insertion (l.insertObservation o policy draws) :=
      holds.insertObservation healthy o policy draws
    rw [done]
    cases l.insertObservation o policy draws <;> rfl
  | _ => exact absurd rfl reading

end Handle

namespace Session

open Handle

variable {d : Deployment} {home : Home} {start first s : Session} {l : Ledger}
  {opened h : Handle} {given : List Int64}

section Acting

variable {front back : List Handle} {disk : CatalogDisk}

theorem Keeps.lastInsertId_operate
    (keeps : (⟨front ++ h :: back, disk⟩ : Session).Keeps home l) (op : Operation) :
    (h.perform (op.action disk) disk).2.1.lastInsertId =
      (op.given (h.perform (op.action disk) disk).1).getLast?.getD h.lastInsertId := by
  rw [← h.lastInsertId_refreshed disk]
  by_cases poisoned : h.isPoisoned
  · -- A poisoned handle gives no id.
    have broken := keeps.here.refreshed.2.isPoisoned.trans poisoned
    rw [Handle.perform, action_of_poisoned broken disk op, op.given_error]
    rfl
  · obtain ⟨holds, healthy⟩ := keeps.healthy (Bool.eq_false_iff.2 poisoned)
    exact holds.lastInsertId_operate keeps.sound healthy disk op

theorem Keeps.lastInsertId_delete
    (keeps : (⟨front ++ h :: back, disk⟩ : Session).Keeps home l) (t : Table) (id : Int64) :
    (h.perform (run (Connection.delete t.name id)) disk).2.1.lastInsertId = h.lastInsertId :=
  (keeps.here.refreshed.1.lastInsertId_delete t id).trans (h.lastInsertId_refreshed disk)

end Acting

/-- What is done through one handle and its copies, from when it is looked at first, while anything
may be done through the other handles of the session. The ids that insertions through it have given
are listed from the first to the last. -/
inductive Log (home : Home) (first : Session) (opened : Handle) :
    List Int64 → Session → Handle → Prop where
  | start : opened ∈ first.handles → Log home first opened [] first opened
  | operate {given : List Int64} {front back : List Handle} {h : Handle} {disk : CatalogDisk}
      (op : Operation) : Log home first opened given ⟨front ++ h :: back, disk⟩ h →
      Log home first opened (given ++ op.given (h.perform (op.action disk) disk).1)
        ⟨front ++ (h.perform (op.action disk) disk).2.1 :: back,
          (h.perform (op.action disk) disk).2.2⟩ (h.perform (op.action disk) disk).2.1
  | delete {given : List Int64} {front back : List Handle} {h : Handle} {disk : CatalogDisk}
      (t : Table) (id : Int64) : Log home first opened given ⟨front ++ h :: back, disk⟩ h →
      Log home first opened given
        ⟨front ++ (h.perform (run (Connection.delete t.name id)) disk).2.1 :: back,
          (h.perform (run (Connection.delete t.name id)) disk).2.2⟩
        (h.perform (run (Connection.delete t.name id)) disk).2.1
  | fail {given : List Int64} {front back : List Handle} {h : Handle} {disk : CatalogDisk}
      {α : Type} {task : Connection → Except CatalogFault (α × Connection)}
      {fault : CatalogFault} : Log home first opened given ⟨front ++ h :: back, disk⟩ h →
      (h.perform (execute task) disk).1 = .error fault →
      Log home first opened given ⟨front ++ (h.perform (execute task) disk).2.1 :: back,
        (h.perform (execute task) disk).2.2⟩ (h.perform (execute task) disk).2.1
  | breakOff {given : List Int64} {front back : List Handle} {h : Handle} {disk : CatalogDisk} :
      Log home first opened given ⟨front ++ h :: back, disk⟩ h →
      Log home first opened given ⟨front ++ h.breakOff :: back, disk⟩ h.breakOff
  | other {given : List Int64} {s next : Session} {h : Handle} :
      Log home first opened given s h → Step home s next → h ∈ next.handles →
      Log home first opened given next h

theorem Log.run (log : Log home first opened given s h) : Run home first s := by
  induction log with
  | start => exact .refl
  | operate op _ ih => exact ih.tail (.act (.operate op))
  | delete t id _ ih => exact ih.tail (.act (.delete t id))
  | fail _ failed ih => exact ih.tail (.act (.fail failed))
  | breakOff _ ih => exact ih.tail (.act .breakOff)
  | other _ step _ ih => exact ih.tail step

theorem Log.lastInsertId (log : Log home first opened given s h) (keeps : first.Keeps home l) :
    h.lastInsertId = given.getLast?.getD opened.lastInsertId := by
  induction log with
  | start => rfl
  | @operate given front back h disk op past ih =>
    obtain ⟨now, keepsNow, -⟩ := past.run.keeps keeps
    rw [keepsNow.lastInsertId_operate op, ih, List.getLast?_append]
    cases (op.given (h.perform (op.action disk) disk).1).getLast? <;> rfl
  | delete t id past ih =>
    obtain ⟨now, keepsNow, -⟩ := past.run.keeps keeps
    exact (keepsNow.lastInsertId_delete t id).trans ih
  | @fail given front back h disk _ _ _ past failed ih =>
    exact ((lastInsertId_of_failing failed).trans (h.lastInsertId_refreshed disk)).trans ih
  | breakOff _ ih => exact ih
  | other _ _ _ ih => exact ih

/-- At any time the id of the last row that a handle and all its copies know is the one that the
last successful insertion through them has given, be it of a source or of an observation, generated
or assigned. Before the first one it is what it was when the handle was opened. -/
theorem Fresh.lastInsertId_log (fresh : Fresh d home start) (run : Run home start first)
    (log : Log home first opened given s h) :
    (∀ id, given.getLast? = some id → h.lastInsertId = id) ∧
      (given = [] → h.lastInsertId = opened.lastInsertId) := by
  obtain ⟨now, keeps, -⟩ := fresh.keeps
  obtain ⟨l, keepsFirst, -⟩ := run.keeps keeps
  have left := log.lastInsertId keepsFirst
  refine ⟨fun id last => ?_, fun none => ?_⟩
  · rw [left, last]
    rfl
  · rw [left, none]
    rfl

theorem Log.of_private {after : Handle} {disk : CatalogDisk}
    (log : Log home first opened given ⟨[h], disk⟩ h) (hidden : isPrivatePath h.path)
    (op : Operation) {result : Except CatalogFault op.Result}
    (done : op.action disk h = (result, after)) (follows : h.Follows after) :
    Log home first opened (given ++ op.given result) ⟨[after], disk⟩ after := by
  have acted := @Log.operate home first opened given [] [] h disk op log
  rw [perform_of_private hidden disk done follows] at acted
  exact acted

/-- A source, an observation with an id of its own, one without the id that it needs and a listing:
the last id is that of the first observation. -/
theorem lastInsertId_log_assigned :
    ∃ (start : Session) (opened h : Handle) (disk : CatalogDisk),
      Fresh .monitorControl .memory start ∧ start.handles = [opened] ∧
      Log .memory start opened [1, 7] ⟨[h], disk⟩ h ∧ h.lastInsertId = 7 := by
  let disk : CatalogDisk := ⟨[], []⟩
  let s : Source := ⟨0, "A", "key", ⟨0, 0, by decide, by decide, by decide, by decide⟩⟩
  let o : Observation := ⟨7, 1, Real.ofInt 2459000, "X", Real.ofInt 1⟩
  let unnamed : Observation := { o with id := 0 }
  let new : Ledger := .new .monitorControl s.createTime
  let known : Ledger := new.addSource s
  let full : Ledger := known.addObservation o 7
  let on (l : Ledger) (id : Int64) (message : String) : Handle :=
    ⟨.monitorControl, memoryPath, ⟨l.database, true, id, true⟩, message, false⟩
  have holds (l : Ledger) (id : Int64) (message : String)
      (own : Deployment.monitorControl = l.deployment) : (on l id message).Holds l :=
    ⟨own, rfl, rfl, rfl⟩
  have source : Handle.insertSource s .inOrder (on new 1 "") = (.ok 1, on known 1 "") :=
    (holds new 1 "" rfl).insertSource (Ledger.sound_new _ _) rfl s
  have assigned : Handle.insertObservation o .assigned .inOrder (on known 1 "") =
      (.ok 7, on full 7 "") := by
    have kept : known.insertObservation o .assigned = .ok (7, full) :=
      Ledger.insertObservation_eq_ok_iff.2 ⟨rfl,
        Ledger.refusal_eq_none_iff.2 ⟨by decide +kernel, by decide +kernel, rfl, rfl⟩, rfl⟩
    rw [(holds known 1 "" rfl).insertObservation rfl o .assigned, kept]
    rfl
  have missing : Handle.insertObservation unnamed .assigned .inOrder (on full 7 "") =
      (.error .missingId, on full 7 CatalogFault.missingId.bareMessage) :=
    (holds full 7 "" rfl).insertObservation rfl unnamed .assigned
  have listed :
      Handle.listObservations none .standard (on full 7 CatalogFault.missingId.bareMessage) =
      (.ok full.observations.entries, on full 7 "") :=
    (holds full 7 CatalogFault.missingId.bareMessage rfl).listObservations rfl .standard
  have fresh : Fresh .monitorControl .memory ⟨[on new 1 ""], disk⟩ := .memory rfl
  have log : Log .memory ⟨[on new 1 ""], disk⟩ (on new 1 "") [1, 7] ⟨[on full 7 ""], disk⟩
      (on full 7 "") :=
    (((Log.start List.mem_cons_self |>.of_private rfl (.insertSource s) source ⟨rfl, rfl⟩)
      |>.of_private rfl (.insertObservation o .assigned) assigned ⟨rfl, rfl⟩)
      |>.of_private rfl (.insertObservation unnamed .assigned) missing ⟨rfl, rfl⟩)
      |>.of_private rfl (.listObservations none) listed ⟨rfl, rfl⟩
  exact ⟨_, on new 1 "", on full 7 "", disk, fresh, rfl, log,
    (fresh.lastInsertId_log .refl log).1 7 rfl⟩

end Session

end ObsCatalog
