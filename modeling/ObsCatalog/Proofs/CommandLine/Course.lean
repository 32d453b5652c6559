import ObsCatalog.Proofs.Catalog.Visit
import ObsCatalog.Proofs.CommandLine.Run

/-! The course of a command.

A command works on one database, be it in a file or in memory. If the command fails then the
database is as it was, or a new one without records; if it succeeds then it has done what its
operation does. So commands leave disks of ledgers behind.
-/

set_option autoImplicit false

namespace ObsCatalog.CommandLine

open Handle (Visits)

def handleAfter (m : Moment) (h : Handle) (r : Request) (disk : CatalogDisk) : Handle :=
  match r.operation m h.deployment with
  | .ok (some op) => (h.perform (op.action disk) disk).2.1
  | .ok none => h
  | .error _ => h

def handleAtEnd (e : Surroundings) (o : Options) (r : Request) (disk : CatalogDisk) :
    Option Handle :=
  match configured o disk with
  | .error _ => none
  | .ok (s, written) =>
    match Handle.openFile o.deployment s.locations e.dataHome e.now written with
    | (.error _, _) => none
    | (.ok (h, _), opened) => some (handleAfter e.moment h r opened)

/-- One database has changed from one ledger to another, or been made with the one and changed
to the other, and all others are as they were. -/
structure Changes (disk after : CatalogDisk) (last : Option Handle) (d : Deployment)
    (now : Calendar.Instant) (l next : Ledger) (home : Home) : Prop where
  before : l.Sound
  sound : next.Sound
  found : home.found disk = some l.database ∨ home.found disk = none ∧ l = .new d now
  left : home.left after last = some next.database
  others : ∀ other, other ≠ home → other.left after last = other.found disk

variable {disk written opened after : CatalogDisk} {e : Surroundings} {o : Options} {r : Request}
  {h : Handle} {l next : Ledger} {home : Home} {d : Deployment} {now : Calendar.Instant}
  {last : Option Handle}

/-- A handle that works on a later ledger has changed its database to it. -/
theorem changes_of_serves {g : Handle} (visits : Visits disk opened d now h l home)
    (sound : next.Sound) (serves : g.Serves after next home)
    (others : ∀ place, home ≠ .file place → after.databaseAt place = opened.databaseAt place) :
    Changes disk after (some g) d now l next home := by
  refine ⟨visits.sound, sound, visits.found, serves.left, fun other differs => ?_⟩
  cases other with
  | file place =>
    show after.databaseAt place = disk.databaseAt place
    rw [others place differs.symm, visits.others place differs.symm]
  | memory =>
    cases home with
    | memory => exact absurd rfl differs
    | file place => exact serves.left_memory

/-- What a request may come to on a ledger: it fails and changes nothing, it needs no operation,
or its operation answers. -/
inductive Comes (e : Surroundings) (d : Deployment) (r : Request) (l : Ledger) :
    Except CommandFault String → Ledger → Prop where
  | failed (fault : CommandFault) : Comes e d r l (.error fault) l
  | idle : r.operation e.moment d = .ok none → Comes e d r l (.ok "") l
  | answered {op : Operation} {a : op.Result} {next : Ledger} {text : String} :
      r.operation e.moment d = .ok (some op) → l.Answers op (.ok a) next → op.Tells a text →
      Comes e d r l (.ok text) next

theorem comes_of_visits (visits : Visits disk opened d e.now h l home) (r : Request) :
    ∃ next, Changes disk (make e.moment h r opened).disk (some (handleAfter e.moment h r opened)) d
        e.now l next home ∧
      Comes e d r l (make e.moment h r opened).outcome next := by
  obtain ⟨outcome, leaves⟩ := Prod.mk.inj (result_make e.moment h r opened)
  rw [outcome, leaves]
  unfold handleAfter
  rw [visits.deployment]
  have stays : Changes disk opened (some h) d e.now l l home :=
    changes_of_serves visits visits.sound visits.serves fun _ _ => rfl
  cases asked : r.operation e.moment d with
  | error fault => exact ⟨l, stays, .failed fault⟩
  | ok found =>
  cases found with
  | none => exact ⟨l, stays, .idle asked⟩
  | some op =>
    -- The handle looks into its file first, and there finds the ledger of the visit.
    obtain ⟨holds, follows⟩ := visits.serves.refreshed
    obtain ⟨next, advances, answers⟩ := holds.advances visits.sound opened op
    have answered : l.Answers op (h.perform (op.action opened) opened).1 next :=
      answers (follows.isPoisoned.trans visits.healthy)
    obtain ⟨serves, -⟩ := visits.serves.perform advances
    refine ⟨next, changes_of_serves visits advances.sound serves ?_, ?_⟩
    · intro place other
      exact visits.serves.databaseAt_perform advances place other
    · show Comes e d r l (((h.perform (op.action opened) opened).1.mapError .catalog).map op.shown)
        next
      cases result : (h.perform (op.action opened) opened).1 with
      | error fault =>
        rw [result] at answered
        obtain rfl := Ledger.eq_of_answers_error answered
        exact .failed _
      | ok a =>
        rw [result] at answered
        exact .answered asked answered (op.tells_shown a)

/-- Either a command stops before it has a database to work on, and nothing has changed, or
one database changes as the request comes to. -/
theorem course (accounted : Accounted disk) (e : Surroundings) (o : Options) (r : Request) :
    ((∃ fault, (fulfil e o r disk).outcome = .error fault) ∧
      ∀ home : Home, home.left (fulfil e o r disk).disk (handleAtEnd e o r disk) =
        home.found disk) ∨
    ∃ l next home, Changes disk (fulfil e o r disk).disk (handleAtEnd e o r disk) o.deployment
        e.now l next home ∧
      Comes e o.deployment r l (fulfil e o r disk).outcome next := by
  obtain ⟨outcome, leaves⟩ := Prod.mk.inj (result_fulfil e o r disk)
  rw [outcome, leaves]
  unfold handleAtEnd
  cases loaded : configured o disk with
  | error fault =>
    left
    refine ⟨⟨_, rfl⟩, ?_⟩
    intro home
    cases home <;> rfl
  | ok pair =>
  obtain ⟨s, written⟩ := pair
  -- The settings may have been written, which changes no database.
  have same := databaseAt_configured loaded
  have accountedWritten := accounted.of_databaseAt_eq same
  simp only
  cases opens : Handle.openFile o.deployment s.locations e.dataHome e.now written with
  | mk result opened =>
  cases result with
  | error fault =>
    left
    have kept := Handle.databaseAt_of_openFile_error accountedWritten opens
    refine ⟨⟨_, rfl⟩, ?_⟩
    intro home
    cases home with
    | memory => rfl
    | file place => exact congrFun (kept.trans same) place
  | ok pair =>
    right
    obtain ⟨h, opening⟩ := pair
    obtain ⟨l, home, visits⟩ := Handle.visits_of_openFile accountedWritten opens
    obtain ⟨next, changes, comes⟩ := comes_of_visits (visits.of_databaseAt_eq same) r
    exact ⟨l, next, home, changes, comes⟩

/-- A disk that earlier commands have left. At first there are no databases. Between commands
anything else may change, and databases may be moved, copied and removed. -/
inductive Reached : CatalogDisk → Prop where
  | start {disk : CatalogDisk} : (∀ place, disk.databaseAt place = none) → Reached disk
  | command {disk : CatalogDisk} (e : Surroundings) (arguments : List String) :
      Reached disk → Reached (run e arguments disk).2
  | edit {disk next : CatalogDisk} :
      (∀ place db, next.databaseAt place = some db →
        ∃ there, disk.databaseAt there = some db) →
      Reached disk → Reached next

theorem Changes.accounted (changes : Changes disk after last d now l next home)
    (accounted : Accounted disk) : Accounted after := by
  intro place db found
  by_cases here : home = .file place
  · subst here
    have left : after.databaseAt place = some next.database := changes.left
    exact ⟨next, changes.sound, Option.some.inj (found.symm.trans left)⟩
  · have kept : after.databaseAt place = disk.databaseAt place :=
      changes.others (.file place) (Ne.symm here)
    exact accounted place db (by rw [← kept, found])

theorem accounted_run (accounted : Accounted disk) (e : Surroundings) (arguments : List String) :
    Accounted (run e arguments disk).2 := by
  rcases run_cases e arguments disk with ⟨o, r, read⟩ | ⟨same, -⟩
  · rw [(run_request read disk).1]
    rcases course accounted e o r with ⟨-, same⟩ | ⟨l, next, home, changes, -⟩
    · exact accounted.of_databaseAt_eq (funext fun place => same (.file place))
    · exact changes.accounted accounted
  · rw [same]
    exact accounted

theorem Reached.accounted (reached : Reached disk) : Accounted disk := by
  -- Each way to reach a disk brings only databases of ledgers, so the runs behind it do not matter.
  induction reached with
  | start none => exact fun place db found => by simp [none place] at found
  | command e arguments _ ih => exact accounted_run ih e arguments
  | edit old _ ih =>
    intro place db found
    obtain ⟨there, known⟩ := old place db found
    exact ih there db known

end ObsCatalog.CommandLine
