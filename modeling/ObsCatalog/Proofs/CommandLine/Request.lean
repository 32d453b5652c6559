import ObsCatalog.Proofs.CommandLine.Told

/-! What a request asks of the catalog.

A request comes to one operation on the handle, or to none, and prints what the operation
yields. A request that cannot be made into an operation stops before the catalog is used.
-/

set_option autoImplicit false

namespace ObsCatalog

open CommandLine

namespace CommandLine

/-- The operation that a request comes to on the catalog of a deployment, if it comes to one. -/
def Request.operation (m : Moment) (d : Deployment) :
    Request → Except CommandFault (Option Operation)
  | .init => .ok none
  | .addSource name authenticator =>
    .ok (some (.insertSource (Source.new name authenticator m.now) m.draws))
  | .addObservation sourceId julianDate polarization lengthDays (some id) =>
    .ok (some (.insertObservation
      { Observation.new sourceId julianDate polarization lengthDays with id } .assigned m.draws))
  | .addObservation sourceId julianDate polarization lengthDays none =>
    .ok (some (.insertObservation (Observation.new sourceId julianDate polarization lengthDays)
      d.idPolicy m.draws))
  | .addFileObservation sourceId file lengthDays =>
    match Observation.ofFileName sourceId file lengthDays with
    | .error fault => .error (.fileName file fault)
    | .ok o => .ok (some (.insertObservation o d.idPolicy m.draws))
  | .getSource id => .ok (some (.getSource id))
  | .findSource authenticator => .ok (some (.findSource authenticator))
  | .listSources name =>
    match equalities [("name", name.map .text)] with
    | .error fault => .error (.catalog fault)
    | .ok filter => .ok (some (.listSources filter))
  | .getObservation id => .ok (some (.getObservation id))
  | .listObservations sourceId polarization =>
    match equalities
        [("source_id", sourceId.map .integer), ("polarization", polarization.map .text)] with
    | .error fault => .error (.catalog fault)
    | .ok filter => .ok (some (.listObservations filter))
  | .stats => .ok (some .statistics)

namespace Execution

def result {α : Type} (e : Execution α) : Except CommandFault α × CatalogDisk :=
  (e.outcome, e.disk)

end Execution

namespace Step

variable {α β ε : Type} {disk : CatalogDisk}

theorem result_bind (s : Step α) (next : α → Step β) (disk : CatalogDisk) :
    ((s >>= next) disk).result =
      match (s disk).result with
      | (.ok a, written) => (next a written).result
      | (.error fault, written) => (.error fault, written) := by
  have bound : (s >>= next) disk = s.followedBy next disk := rfl
  cases found : (s disk).outcome <;>
    simp only [bound, Step.followedBy, Execution.result, found]

theorem result_of (fault : ε → CommandFault) (x : Except ε α) (disk : CatalogDisk) :
    (Step.of fault x disk).result = (x.mapError fault, disk) := by
  cases x <;> rfl

theorem result_shownAt (level : LogLevel) (s : Step α) (disk : CatalogDisk) :
    (Step.shownAt level s disk).result = (s disk).result := rfl

theorem result_perform (h : Handle) (before : List Line) (after : α → List Line)
    (action : Action α) (disk : CatalogDisk) :
    (Step.perform h before after action disk).result =
      ((h.perform action disk).1.mapError .catalog, (h.perform action disk).2.2) := by
  cases performed : h.perform action disk with | mk result left =>
  cases result <;> simp only [Step.perform, Execution.result, performed] <;> rfl

theorem result_print (h : Handle) (before : List Line) (after : α → List Line)
    (action : Action α) {next : α → Step String} {print : α → String}
    (prints : ∀ a written, (next a written).result = (.ok (print a), written))
    (disk : CatalogDisk) :
    ((Step.perform h before after action >>= next) disk).result =
      (((h.perform action disk).1.mapError .catalog).map print, (h.perform action disk).2.2) := by
  rw [result_bind, result_perform]
  cases (h.perform action disk).1 with
  | error fault => rfl
  | ok a => exact prints a _

theorem result_printFound (json : α → Json) (missing : Line) (found : Option α)
    (disk : CatalogDisk) :
    (printFound json missing found disk).result =
      (.ok ((found.map fun a => printed (json a)).getD ""), disk) := by
  cases found <;> rfl

end Step

/-- Statistics look at the file at the path of the handle, which performing does not change. -/
theorem perform_statisticsOn (h : Handle) (disk : CatalogDisk) :
    h.perform (h.statisticsOn disk) disk =
      h.perform (Operation.statistics.action disk) disk := by
  have path : (h.refreshed disk).path = h.path := by
    unfold Handle.refreshed
    split
    · rfl
    · split <;> rfl
  have same : (h.refreshed disk).statisticsOn disk = h.statisticsOn disk := by
    unfold Handle.statisticsOn Handle.isInMemory Handle.fileBytes
    rw [path]
  have acts : Operation.statistics.action disk (h.refreshed disk) =
      h.statisticsOn disk (h.refreshed disk) := congrFun same (h.refreshed disk)
  unfold Handle.perform
  rw [acts]
  rfl

theorem result_make (m : Moment) (h : Handle) (r : Request) (disk : CatalogDisk) :
    (make m h r disk).result =
      match r.operation m h.deployment with
      | .error fault => (.error fault, disk)
      | .ok none => (.ok "", disk)
      | .ok (some op) => (((h.perform (op.action disk) disk).1.mapError .catalog).map op.shown,
          (h.perform (op.action disk) disk).2.2) := by
  -- Every request prints what one operation gives; only three can fail before they make it.
  cases r with
  | init => rfl
  | addSource name authenticator => exact Step.result_print _ _ _ _ (fun _ _ => rfl) disk
  | addObservation sourceId julianDate polarization lengthDays id =>
    cases id <;> exact Step.result_print _ _ _ _ (fun _ _ => rfl) disk
  | addFileObservation sourceId file lengthDays =>
    rw [make, Request.operation, Step.result_bind, Step.result_of]
    cases Observation.ofFileName sourceId file lengthDays with
    | error fault => rfl
    | ok o => exact Step.result_print _ _ _ _ (fun _ _ => rfl) disk
  | getSource id =>
    exact Step.result_print _ _ _ _ (fun a => Step.result_printFound _ _ a) disk
  | findSource authenticator =>
    exact Step.result_print _ _ _ _ (fun a => Step.result_printFound _ _ a) disk
  | listSources name =>
    rw [make, Request.operation, Step.result_bind, Step.result_of]
    cases equalities [("name", name.map .text)] with
    | error fault => rfl
    | ok filter => exact Step.result_print _ _ _ _ (fun _ _ => rfl) disk
  | getObservation id =>
    exact Step.result_print _ _ _ _ (fun a => Step.result_printFound _ _ a) disk
  | listObservations sourceId polarization =>
    rw [make, Request.operation, Step.result_bind, Step.result_of]
    cases equalities
        [("source_id", sourceId.map .integer), ("polarization", polarization.map .text)] with
    | error fault => rfl
    | ok filter => exact Step.result_print _ _ _ _ (fun _ _ => rfl) disk
  | stats =>
    have printing := Step.result_print h [] (fun s => sizeLines h disk ++ [.counted s])
      (h.statisticsOn disk) (fun s _ => (rfl : ((pure (printed s.json) : Step String) _).result = _))
      disk
    rw [perform_statisticsOn] at printing
    exact printing

end CommandLine

end ObsCatalog
