import ObsCatalog.Proofs.CommandLine.Request
import ObsCatalog.Proofs.Settings.File

/-! The stages of a command.

A command that makes a request loads and checks the settings, opens the file, and makes the
request through the handle. It stops at the first stage that fails. Settings that are written
because there were none are valid, so a command that stops at its settings has done nothing.
-/

set_option autoImplicit false

namespace ObsCatalog.CommandLine

/-- The settings that a command works with, and the disk once they have been loaded. -/
def configured (o : Options) (disk : CatalogDisk) : Except SettingsFault (Settings × CatalogDisk) :=
  match Settings.loadOrCreate disk o.settingsPath with
  | .error fault => .error fault
  | .ok (loaded, written) =>
    match settle o loaded with
    | .error fault => .error fault
    | .ok s => .ok (s, written)

/-- The command makes a request of some kind. -/
def Command.asks (kind : Request → Bool) : Command → Bool
  | .request r => kind r
  | .obsidInfo _ => false
  | .completions _ => false

theorem exists_request {environment : Option String} {arguments : List String} {o : Options}
    (kind : Request → Bool)
    (known : (Invocation.read environment arguments).toOption.any
      (fun i => i.options = o && i.command.asks kind) = true) :
    ∃ r, Invocation.read environment arguments = .ok ⟨o, .request r⟩ ∧ kind r = true := by
  cases read : Invocation.read environment arguments with
  | error stop => simp [read, Except.toOption] at known
  | ok invocation =>
    obtain ⟨options, command⟩ := invocation
    cases command with
    | request r =>
      simp only [read, Except.toOption, Option.any_some, Command.asks, Bool.and_eq_true,
        decide_eq_true_eq] at known
      exact ⟨r, by rw [known.1], known.2⟩
    | obsidInfo obsid => simp [read, Except.toOption, Command.asks] at known
    | completions shell => simp [read, Except.toOption, Command.asks] at known

theorem settle_standard (o : Options) : settle o .standard = .ok (o.applied .standard) := by
  have valid : (o.applied .standard).validate = .ok () := by
    show Settings.standard.validate = .ok ()
    rfl
  simp only [settle, valid]

variable {e : Surroundings} {arguments : List String} {o : Options} {r : Request}
  {disk written after : CatalogDisk} {s : Settings}

/-- The settings of a command are loaded from a file, or written where there was nothing. -/
theorem of_configured (loaded : configured o disk = .ok (s, written)) :
    written = disk ∨ ∃ place, disk.get? place = none ∧
      written = disk.put place (.text (Text.symbols Settings.standard.write)) := by
  unfold configured at loaded
  split at loaded
  · cases loaded
  · next read =>
    split at loaded
    · cases loaded
    · cases loaded
      exact (Settings.of_loadOrCreate read).imp_right And.right

theorem exists_configured (known : (configured o disk).toOption.map (·.1) = some s) :
    ∃ written, configured o disk = .ok (s, written) := by
  cases loaded : configured o disk with
  | error fault => simp [loaded, Except.toOption] at known
  | ok pair =>
    obtain ⟨first, written⟩ := pair
    simp only [loaded, Except.toOption, Option.map_some, Option.some.injEq] at known
    exact ⟨written, by rw [known]⟩

theorem extends_configured (loaded : configured o disk = .ok (s, written)) :
    Disk.Extends disk written := by
  rcases of_configured loaded with rfl | ⟨place, absent, rfl⟩
  · exact .refl written
  · exact Disk.extends_put absent _

theorem databaseAt_configured (loaded : configured o disk = .ok (s, written)) :
    written.databaseAt = disk.databaseAt := by
  rcases of_configured loaded with rfl | ⟨place, absent, rfl⟩
  · rfl
  · exact Disk.databaseAt_put_text absent _

theorem result_loadSettings (path : String) (disk : CatalogDisk) :
    (loadSettings path disk).result =
      match Settings.loadOrCreate disk path with
      | .ok (s, written) => (.ok s, written)
      | .error fault => (.error (.settings fault), disk) := by
  unfold loadSettings
  cases Settings.loadOrCreate disk path <;> rfl

theorem result_openCatalog (e : Surroundings) (d : Deployment) (l : Locations)
    (disk : CatalogDisk) :
    (openCatalog e d l disk).result =
      match Handle.openFile d l e.dataHome e.now disk with
      | (.ok (h, _), opened) => (.ok h, opened)
      | (.error fault, opened) => (.error (.catalog (fault.fault d)), opened) := by
  unfold openCatalog
  cases Handle.openFile d l e.dataHome e.now disk with | mk result opened =>
  cases result <;> rfl

theorem result_fulfil (e : Surroundings) (o : Options) (r : Request) (disk : CatalogDisk) :
    (fulfil e o r disk).result =
      match configured o disk with
      | .error fault => (.error (.settings fault), disk)
      | .ok (s, written) =>
        match Handle.openFile o.deployment s.locations e.dataHome e.now written with
        | (.error fault, opened) => (.error (.catalog (fault.fault o.deployment)), opened)
        | (.ok (h, _), opened) => (make e.moment h r opened).result := by
  unfold fulfil configured
  rw [Step.result_bind, Step.result_shownAt, result_loadSettings]
  cases read : Settings.loadOrCreate disk o.settingsPath with
  | error fault => rfl
  | ok pair =>
  obtain ⟨first, written⟩ := pair
  simp only
  rw [Step.result_bind, Step.result_of]
  -- Settings that are refused were read and not made, for the standard ones are accepted.
  cases settled : settle o first with
  | error fault =>
    rcases Settings.of_loadOrCreate read with rfl | ⟨rfl, -⟩
    · rfl
    · cases (settle_standard o).symm.trans settled
  | ok s =>
    simp only [Except.mapError]
    rw [Step.result_shownAt, Step.result_bind, result_openCatalog]
    cases Handle.openFile o.deployment s.locations e.dataHome e.now written with | mk result opened =>
    cases result <;> rfl

theorem run_of_ok (read : Invocation.read e.dataDirectory arguments = .ok ⟨o, .request r⟩)
    {output : String} (done : (fulfil e o r disk).result = (.ok output, after)) :
    (run e arguments disk).1.code = 0 ∧ (run e arguments disk).1.output = output ∧
      (run e arguments disk).2 = after := by
  obtain ⟨outcome, rfl⟩ := Prod.mk.inj done
  have ran : run e arguments disk =
      (.success output (fulfil e o r disk).lines, (fulfil e o r disk).disk) := by
    simp only [run, read, execute, outcome]
  rw [ran]
  exact ⟨rfl, rfl, rfl⟩

theorem run_of_error (read : Invocation.read e.dataDirectory arguments = .ok ⟨o, .request r⟩)
    {fault : CommandFault} (failed : (fulfil e o r disk).result = (.error fault, after)) :
    (run e arguments disk).1.code = 1 ∧ (run e arguments disk).1.output = "" ∧
      (run e arguments disk).2 = after := by
  obtain ⟨outcome, rfl⟩ := Prod.mk.inj failed
  have ran : run e arguments disk =
      (.failure fault (fulfil e o r disk).lines, (fulfil e o r disk).disk) := by
    simp only [run, read, execute, outcome]
  rw [ran]
  exact ⟨rfl, rfl, rfl⟩

/-- What a run of a command line with a request shows and leaves. -/
theorem run_request (read : Invocation.read e.dataDirectory arguments = .ok ⟨o, .request r⟩)
    (disk : CatalogDisk) :
    (run e arguments disk).2 = (fulfil e o r disk).disk ∧
      ((∃ fault, (fulfil e o r disk).outcome = .error fault ∧
          (run e arguments disk).1.code = 1 ∧ (run e arguments disk).1.output = "") ∨
        ∃ output, (fulfil e o r disk).outcome = .ok output ∧
          (run e arguments disk).1.code = 0 ∧ (run e arguments disk).1.output = output) := by
  cases outcome : (fulfil e o r disk).outcome with
  | error fault =>
    obtain ⟨code, output, after⟩ := run_of_error read (Prod.ext outcome rfl)
    exact ⟨after, .inl ⟨fault, rfl, code, output⟩⟩
  | ok text =>
    obtain ⟨code, output, after⟩ := run_of_ok read (Prod.ext outcome rfl)
    exact ⟨after, .inr ⟨text, rfl, code, output⟩⟩

/-- A command line makes a request or leaves the disk alone. -/
theorem run_cases (e : Surroundings) (arguments : List String) (disk : CatalogDisk) :
    (∃ o r, Invocation.read e.dataDirectory arguments = .ok ⟨o, .request r⟩) ∨
      (run e arguments disk).2 = disk ∧
        ((run e arguments disk).1.code ≠ 0 → (run e arguments disk).1.output = "") := by
  unfold run
  cases read : Invocation.read e.dataDirectory arguments with
  | error stop => cases stop <;> simp [Outcome.success, Outcome.misuse]
  | ok invocation =>
    obtain ⟨o, command⟩ := invocation
    cases command with
    | request r => exact .inl ⟨o, r, rfl⟩
    | obsidInfo obsid =>
      right
      simp only [execute]
      cases obsidInfo obsid <;>
        simp [Step.of, Step.yielding, Step.stopping, Outcome.success, Outcome.failure]
    | completions shell =>
      right
      exact ⟨rfl, fun failed => absurd rfl failed⟩

theorem run_of_operation (read : Invocation.read e.dataDirectory arguments = .ok ⟨o, .request r⟩)
    {h : Handle} {opening : Schema.Opening} {opened : CatalogDisk} {op : Operation} {a : op.Result}
    (loaded : configured o disk = .ok (s, written))
    (opens : Handle.openFile o.deployment s.locations e.dataHome e.now written =
      (.ok (h, opening), opened))
    (asked : r.operation e.moment h.deployment = .ok (some op))
    (done : (h.perform (op.action opened) opened).1 = .ok a) :
    (run e arguments disk).1.code = 0 ∧ op.Tells a (run e arguments disk).1.output := by
  have stages := result_fulfil e o r disk
  simp only [loaded, opens, result_make, asked, done] at stages
  obtain ⟨code, output, -⟩ := run_of_ok read stages
  exact ⟨code, output ▸ op.tells_shown a⟩

/-- A request succeeds when every stage does. -/
theorem stages_of_run (read : Invocation.read e.dataDirectory arguments = .ok ⟨o, .request r⟩)
    (succeeds : (run e arguments disk).1.code = 0) :
    ∃ s written h opening opened, configured o disk = .ok (s, written) ∧
      Handle.openFile o.deployment s.locations e.dataHome e.now written =
        (.ok (h, opening), opened) ∧
      (make e.moment h r opened).result =
        (.ok (run e arguments disk).1.output, (run e arguments disk).2) := by
  have stages := result_fulfil e o r disk
  cases outcome : (fulfil e o r disk).result with | mk result after =>
  cases result with
  | error fault => simp [(run_of_error read outcome).1] at succeeds
  | ok output =>
    obtain ⟨-, rfl, rfl⟩ := run_of_ok read outcome
    rw [outcome] at stages
    split at stages
    · cases stages
    · next s written loaded =>
      split at stages
      · cases stages
      · next h opening opened opens =>
        exact ⟨s, written, h, opening, opened, loaded, opens, stages.symm⟩

end ObsCatalog.CommandLine
