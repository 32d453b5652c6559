import ObsCatalog.Proofs.Catalog.Session
import ObsCatalog.Proofs.Storage.Agreement

/-! Handles in which a task has broken off.

Whatever is tried through such a handle or a copy of it fails before it begins, and so does nothing
to any table. Handles that have been opened by themselves never notice what is tried there: they
answer as if none of it had been tried.
-/

set_option autoImplicit false

namespace ObsCatalog

open Sql (Connection)
open Disk (Agree AgreeOutcome)

namespace Handle

variable {disk other : CatalogDisk}

theorem refreshed_agree (agree : Agree disk other) (h : Handle) :
    h.refreshed disk = h.refreshed other := by
  unfold refreshed
  rw [agree.database?]

theorem settled_agree (agree : Agree disk other) (h : Handle) :
    Agree (h.settled disk) (h.settled other) := by
  unfold settled
  split
  · exact agree
  · exact agree.writeDatabase h.path h.connection.database

theorem perform_agree (agree : Agree disk other) (h : Handle) {α : Type} (action : Action α) :
    (h.perform action disk).1 = (h.perform action other).1 ∧
      (h.perform action disk).2.1 = (h.perform action other).2.1 ∧
      Agree (h.perform action disk).2.2 (h.perform action other).2.2 := by
  unfold perform
  rw [refreshed_agree agree]
  exact ⟨rfl, rfl, settled_agree agree _⟩

theorem statisticsOn_agree (agree : Agree disk other) (h : Handle) :
    h.statisticsOn disk = h.statisticsOn other := by
  unfold statisticsOn fileBytes
  rw [agree.find]

theorem fileContent_agree (agree : Agree disk other) (path : String) (create : Bool) :
    fileContent disk path create = fileContent other path create := by
  unfold fileContent
  rw [agree.find, agree.locate]

theorem openPath_agree (agree : Agree disk other) (d : Deployment) (path : String) (create : Bool)
    (now : Calendar.Instant) :
    (openPath d path create now disk).1 = (openPath d path create now other).1 ∧
      Agree (openPath d path create now disk).2 (openPath d path create now other).2 := by
  simp only [openPath, fileContent_agree agree]
  split
  · exact ⟨rfl, agree⟩
  · exact ⟨rfl, agree⟩
  · exact ⟨rfl, settled_agree agree _⟩

theorem prepareDirectory_agree (agree : Agree disk other) (path : String) (create : Bool) :
    AgreeOutcome (prepareDirectory disk path create) (prepareDirectory other path create) := by
  unfold prepareDirectory
  split
  · next directory _ =>
    have made := agree.makeDirectories directory
    generalize disk.makeDirectories directory = left, other.makeDirectories directory = right
      at made
    cases made with
    | ok agreeMade => exact .ok agreeMade
    | error fault => exact .error _
  · exact .ok agree

theorem openFile_agree (agree : Agree disk other) (d : Deployment) (l : Locations)
    (dataHome : Option String) (now : Calendar.Instant) :
    (openFile d l dataHome now disk).1 = (openFile d l dataHome now other).1 ∧
      Agree (openFile d l dataHome now disk).2 (openFile d l dataHome now other).2 := by
  unfold openFile
  split
  · exact ⟨rfl, agree⟩
  · next path _ =>
    have made := prepareDirectory_agree agree path l.createIfMissing
    generalize prepareDirectory disk path l.createIfMissing = left,
      prepareDirectory other path l.createIfMissing = right at made
    cases made with
    | ok agreeMade => exact openPath_agree agreeMade d path l.createIfMissing now
    | error fault => exact ⟨rfl, agree⟩

theorem refreshed_keeps (h : Handle) (disk : CatalogDisk) :
    (h.refreshed disk).path = h.path ∧ (h.refreshed disk).lastError = h.lastError ∧
      (h.refreshed disk).isPoisoned = h.isPoisoned := by
  unfold refreshed
  split
  · exact ⟨rfl, rfl, rfl⟩
  · split <;> exact ⟨rfl, rfl, rfl⟩

/-- A handle that only looks into its file leaves the disk with what it has. -/
theorem agree_settled_refreshed (h : Handle) (disk : CatalogDisk) :
    Agree disk ((h.refreshed disk).settled disk) := by
  by_cases hidden : isPrivatePath h.path
  · rw [refreshed, if_pos hidden, settled, if_pos (.inl hidden)]
    exact .refl disk
  simp only [refreshed, if_neg hidden]
  split
  · next db known =>
    obtain ⟨place, reached, found⟩ := Disk.exists_of_database? known
    have other : disk.get? place ≠ some .directory := by simp [found]
    have written := settled_of_writable (h := { h with
      connection := { h.connection with database := db, isWritable := true } })
      (Bool.eq_false_iff.2 hidden) rfl reached
    rw [written]
    exact Disk.agree_put_same found (Disk.below_of_get?_ne other)
  · rw [settled, if_pos (.inr rfl)]
    exact .refl disk

end Handle

/-- A call through a handle: an operation, or any task on the connection. -/
inductive Call : Type 1 where
  | operate (op : Operation)
  | execute {α : Type} (task : Connection → Except CatalogFault (α × Connection))

namespace Call

def Result : Call → Type
  | .operate op => op.Result
  | @execute α _ => α

def action (disk : CatalogDisk) : (a : Call) → Action a.Result
  | .operate op => op.action disk
  | .execute task => Handle.execute task

theorem action_of_poisoned {h : Handle} (poisoned : h.isPoisoned = true) (disk : CatalogDisk)
    (a : Call) : a.action disk h = (.error Handle.poisoned, h) := by
  cases a with
  | operate op => exact Handle.action_of_poisoned poisoned disk op
  | execute task => exact Handle.execute_of_poisoned poisoned task

theorem action_agree {disk other : CatalogDisk} (agree : Agree disk other) (a : Call) :
    a.action disk = a.action other := by
  cases a with
  | execute task => rfl
  | operate op =>
    cases op with
    | statistics =>
      funext h
      show h.statisticsOn disk h = h.statisticsOn other h
      rw [Handle.statisticsOn_agree agree]
    | _ => rfl

end Call

/-! A handle in which a task has broken off, and others. -/

/-- A broken handle, the handles that have been opened by themselves, and the disk. -/
structure Scene where
  broken : Handle
  others : List Handle
  disk : CatalogDisk

/-- Something is tried through the broken handle or a copy of it, something is tried through one of
the other handles, or one more is opened, if that succeeds. -/
inductive Turn : Type 1 where
  | broken (a : Call)
  | other (index : Nat) (a : Call)
  | opens (d : Deployment) (locations : Locations) (dataHome : Option String)
      (now : Calendar.Instant)

def Turn.isBroken : Turn → Bool
  | .broken _ => true
  | _ => false

namespace Scene

/-- A task breaks off after it has made something else of the connection. On a handle that is
poisoned already it does not even begin. -/
def breakingOff (left : Connection → Connection) (h : Handle) (others : List Handle)
    (disk : CatalogDisk) : Scene :=
  if h.isPoisoned then ⟨h, others, disk⟩
  else
    let g := h.refreshed disk
    let broken := { g with connection := left g.connection }.breakOff
    ⟨broken, others, broken.settled disk⟩

def after (s : Scene) : Turn → Scene
  | .broken a =>
    let (_, broken, disk) := s.broken.perform (a.action s.disk) s.disk
    { s with broken, disk }
  | .other index a =>
    match s.others[index]? with
    | none => s
    | some g =>
      let (_, g, disk) := g.perform (a.action s.disk) s.disk
      { s with others := s.others.set index g, disk }
  | .opens d locations dataHome now =>
    match Handle.openFile d locations dataHome now s.disk with
    | (.ok (g, _), disk) => { s with others := g :: s.others, disk }
    | (.error _, disk) => { s with disk }

variable {s t : Scene} {h g : Handle}

/-- What does not change of a broken handle. Of a file it sees what others make of it. -/
structure Stays (h g : Handle) : Prop where
  isPoisoned : g.isPoisoned = true
  path : g.path = h.path
  lastError : g.lastError = h.lastError
  lastInsertId : g.lastInsertId = h.lastInsertId
  inMemory : Handle.isPrivatePath h.path → g = h

theorem perform_of_poisoned (poisoned : h.isPoisoned = true) (disk : CatalogDisk) (a : Call) :
    h.perform (a.action disk) disk =
      (.error Handle.poisoned, h.refreshed disk, (h.refreshed disk).settled disk) := by
  have broken := (h.refreshed_keeps disk).2.2.trans poisoned
  rw [Handle.perform, a.action_of_poisoned broken]

/-- The other handles do not notice whether the scene is the one or the other. -/
structure Alike (s t : Scene) : Prop where
  others : s.others = t.others
  disk : Agree s.disk t.disk

theorem Alike.refl (s : Scene) : Alike s s := ⟨rfl, .refl s.disk⟩

theorem Alike.trans {u : Scene} (first : Alike s t) (second : Alike t u) : Alike s u :=
  ⟨first.others.trans second.others, first.disk.trans second.disk⟩

theorem alike_broken (poisoned : s.broken.isPoisoned = true) (a : Call) :
    Alike (s.after (.broken a)) s := by
  simp only [Scene.after, perform_of_poisoned poisoned]
  exact ⟨rfl, (s.broken.agree_settled_refreshed s.disk).symm⟩

theorem Alike.after (alike : Alike s t) {turn : Turn} (separate : turn.isBroken = false) :
    Alike (s.after turn) (t.after turn) := by
  obtain ⟨others, disk⟩ := alike
  cases turn with
  | broken a => cases separate
  | other index a =>
    simp only [Scene.after, others]
    cases t.others[index]? with
    | none => exact ⟨others, disk⟩
    | some g =>
      obtain ⟨-, handle, agree⟩ := g.perform_agree disk (a.action s.disk)
      rw [a.action_agree disk] at handle agree ⊢
      exact ⟨congrArg (t.others.set index ·) handle, agree⟩
  | opens d locations dataHome now =>
    obtain ⟨same, agree⟩ := Handle.openFile_agree disk d locations dataHome now
    simp only [Scene.after]
    generalize Handle.openFile d locations dataHome now s.disk = left,
      Handle.openFile d locations dataHome now t.disk = right at same agree ⊢
    obtain ⟨result, written⟩ := left
    obtain ⟨_, other⟩ := right
    subst same
    cases result with
    | error fault => exact ⟨others, agree⟩
    | ok pair => exact ⟨congrArg (pair.1 :: ·) others, agree⟩

theorem Stays.refl (poisoned : h.isPoisoned = true) : Stays h h :=
  ⟨poisoned, rfl, rfl, rfl, fun _ => rfl⟩

theorem Stays.trans {k : Handle} (first : Stays h g) (second : Stays g k) : Stays h k where
  isPoisoned := second.isPoisoned
  path := second.path.trans first.path
  lastError := second.lastError.trans first.lastError
  lastInsertId := second.lastInsertId.trans first.lastInsertId
  inMemory := fun hidden =>
    (second.inMemory (first.path ▸ hidden)).trans (first.inMemory hidden)

theorem stays_refreshed (poisoned : h.isPoisoned = true) (disk : CatalogDisk) :
    Stays h (h.refreshed disk) := by
  obtain ⟨path, lastError, same⟩ := h.refreshed_keeps disk
  refine ⟨same.trans poisoned, path, lastError, h.lastInsertId_refreshed disk, fun hidden => ?_⟩
  rw [Handle.refreshed, if_pos hidden]

theorem stays_after (poisoned : s.broken.isPoisoned = true) (turn : Turn) :
    Stays s.broken (s.after turn).broken := by
  cases turn with
  | broken a =>
    simp only [Scene.after, perform_of_poisoned poisoned]
    exact stays_refreshed poisoned s.disk
  | other index a =>
    simp only [Scene.after]
    split <;> exact .refl poisoned
  | opens d locations dataHome now =>
    simp only [Scene.after]
    split <;> exact .refl poisoned

def run (s : Scene) (turns : List Turn) : Scene := turns.foldl after s

theorem stays_run (poisoned : s.broken.isPoisoned = true) (turns : List Turn) :
    Stays s.broken (s.run turns).broken := by
  induction turns generalizing s with
  | nil => exact .refl poisoned
  | cons turn rest ih =>
    have first := stays_after poisoned turn
    exact first.trans (ih first.isPoisoned)

/-- Turns of the broken handle can be left out. -/
theorem Alike.run (alike : Alike s t) (poisoned : s.broken.isPoisoned = true)
    (turns : List Turn) : Alike (s.run turns) (t.run (turns.filter (!·.isBroken))) := by
  induction turns generalizing s t with
  | nil => exact alike
  | cons turn rest ih =>
    have still := (stays_after poisoned turn).isPoisoned
    cases separate : turn.isBroken with
    | false =>
      rw [List.filter_cons_of_pos (by simp [separate])]
      exact ih (alike.after separate) still
    | true =>
      rw [List.filter_cons_of_neg (by simp [separate])]
      cases turn with
      | broken a => exact ih ((alike_broken poisoned a).trans alike) still
      | _ => cases separate

theorem broken_breakingOff (left : Connection → Connection) (h : Handle) (others : List Handle)
    (disk : CatalogDisk) :
    let broken := (breakingOff left h others disk).broken
    broken.isPoisoned = true ∧ broken.path = h.path ∧ broken.lastError = h.lastError := by
  intro broken
  obtain ⟨path, lastError, -⟩ := h.refreshed_keeps disk
  by_cases poisoned : h.isPoisoned
  · have same : broken = h := congrArg Scene.broken (if_pos poisoned)
    rw [same]
    exact ⟨poisoned, rfl, rfl⟩
  · have same : broken = _ := congrArg Scene.broken (if_neg poisoned)
    rw [same]
    exact ⟨rfl, path, lastError⟩

/-- Once a task has broken off in a handle, whatever it had done by then, the handle is frozen. All
calls through it or its copies fail with the lock before they begin, and they leave every disk as it
is. The message and the last id stay what they were, and so does a database in memory. Handles that
have been or are opened by themselves have the same databases and give the same answers as if
nothing had been tried through the broken one. -/
theorem frozen_after_breakingOff (left : Connection → Connection) (h : Handle)
    (others : List Handle) (disk : CatalogDisk) (turns : List Turn) :
    let start := breakingOff left h others disk
    let now := start.run turns
    let alone := start.run (turns.filter (!·.isBroken))
    (∀ a : Call, (now.broken.perform (a.action now.disk) now.disk).1 = .error Handle.poisoned ∧
      (now.broken.perform (a.action now.disk) now.disk).2.1 = now.broken.refreshed now.disk ∧
      Agree (now.broken.perform (a.action now.disk) now.disk).2.2 now.disk) ∧
    now.broken.lastError = h.lastError ∧
    now.broken.lastInsertId = start.broken.lastInsertId ∧
    (Handle.isPrivatePath h.path → now.broken.connection = start.broken.connection) ∧
    now.others = alone.others ∧ Agree now.disk alone.disk ∧
    (∀ (g : Handle) (a : Call), (g.perform (a.action now.disk) now.disk).1 =
      (g.perform (a.action alone.disk) alone.disk).1) ∧
    ∀ d locations dataHome time, (Handle.openFile d locations dataHome time now.disk).1 =
      (Handle.openFile d locations dataHome time alone.disk).1 := by
  intro start now alone
  obtain ⟨poisoned, path, lastError⟩ := broken_breakingOff left h others disk
  have stays := stays_run poisoned turns
  -- Turns of the broken handle can be left out without anyone else seeing a difference.
  obtain ⟨sameOthers, agree⟩ := (Alike.refl start).run poisoned turns
  refine ⟨fun a => ?refuses, stays.lastError.trans lastError, stays.lastInsertId, ?memory,
    sameOthers, agree, fun g a => ?answers, fun d locations dataHome time =>
      (Handle.openFile_agree agree d locations dataHome time).1⟩
  case refuses =>
    rw [perform_of_poisoned stays.isPoisoned]
    exact ⟨rfl, rfl, (now.broken.agree_settled_refreshed now.disk).symm⟩
  case memory => exact fun hidden => congrArg (·.connection) (stays.inMemory (path ▸ hidden))
  case answers =>
    rw [a.action_agree agree]
    exact (g.perform_agree agree _).1

/-- A task has set the last id and breaks off, and a source is tried afterwards. -/
theorem frozen_after_breakingOff_memory :
    let disk : CatalogDisk := ⟨[], []⟩
    let now : Calendar.Instant := ⟨0, 0, by decide, by decide, by decide, by decide⟩
    let h : Handle := { Handle.made .librarian Handle.memoryPath now with lastError := "before" }
    let start := breakingOff (fun c => { c with lastInsertId := 5 }) h [] disk
    let later := start.run [.broken (.operate (.insertSource ⟨0, "A", "key", now⟩))]
    later.broken.lastError = "before" ∧ later.broken.lastInsertId = 5 ∧
      later.broken.connection = start.broken.connection ∧
      (later.broken.perform (Handle.insertSource ⟨0, "A", "key", now⟩) later.disk).1 =
        .error Handle.poisoned := by
  intro disk now h start later
  obtain ⟨refused, message, last, kept, -⟩ := frozen_after_breakingOff
    (fun c => { c with lastInsertId := 5 }) h [] disk
    [.broken (.operate (.insertSource ⟨0, "A", "key", now⟩))]
  exact ⟨message, last, kept rfl, (refused (.operate (.insertSource ⟨0, "A", "key", now⟩))).1⟩

end Scene

end ObsCatalog
