import ObsCatalog.Proofs.Catalog.Reopening

/-! Visits to a disk of ledgers.

A visit opens a file, does at most one operation and drops the handle. If every database on
the disk is that of a ledger then so is each afterwards, and at most one of them has changed.
-/

set_option autoImplicit false

namespace ObsCatalog

open Sql (Database)

def Accounted (disk : CatalogDisk) : Prop :=
  ∀ place db, disk.databaseAt place = some db → ∃ l : Ledger, l.Sound ∧ db = l.database

theorem Accounted.of_databaseAt_eq {disk other : CatalogDisk} (accounted : Accounted disk)
    (same : other.databaseAt = disk.databaseAt) : Accounted other := by
  intro place db found
  rw [same] at found
  exact accounted place db found

/-- The database at a home before there is a handle. There is none in memory. -/
def Home.found (disk : CatalogDisk) : Home → Option Database
  | .memory => none
  | .file place => disk.databaseAt place

/-- The database at a home when a visit ends, given the handle that there was. A database in
memory goes away with its handle. -/
def Home.left (disk : CatalogDisk) (last : Option Handle) : Home → Option Database
  | .memory => (last.filter (Handle.isPrivatePath ·.path)).map (·.connection.database)
  | .file place => disk.databaseAt place

namespace Handle

variable {h : Handle} {d : Deployment} {disk prepared opened : CatalogDisk} {path : String}
  {place : Place} {l : Ledger} {home : Home} {locations : Locations} {dataHome : Option String}
  {now : Calendar.Instant}

theorem locate_of_openPath {create : Bool} {opening : Schema.Opening}
    (shown : isPrivatePath path = false)
    (opens : openPath d path create now disk = (.ok (h, opening), opened)) :
    ∃ place, disk.locate path = .ok place := by
  cases content : fileContent disk path create with
  | error fault => simp [openPath, shown, content] at opens
  | ok read => exact locate_of_fileContent content

theorem databaseAt_of_openPath_error {create : Bool} {fault : OpenFault}
    (accounted : Accounted disk)
    (failed : openPath d path create now disk = (.error fault, opened)) :
    opened.databaseAt = disk.databaseAt := by
  by_cases hidden : isPrivatePath path
  · rw [openPath_empty (if_pos hidden)] at failed
    cases failed
  have shown : isPrivatePath path = false := Bool.eq_false_iff.2 hidden
  cases known : disk.database? path with
  | none => rw [openPath_failed known shown failed]
  | some db =>
    obtain ⟨place, reached, found⟩ := Disk.exists_of_database? known
    obtain ⟨l, -, rfl⟩ := accounted place db (Disk.databaseAt_eq_some_iff.2 found)
    rw [openPath_database shown reached found] at failed
    rw [← (Prod.mk.inj failed).2]
    exact Disk.databaseAt_put_same found

/-- An attempt to open a file that fails changes no database and makes none. -/
theorem databaseAt_of_openFile_error {fault : OpenFault} (accounted : Accounted disk)
    (failed : openFile d locations dataHome now disk = (.error fault, opened)) :
    opened.databaseAt = disk.databaseAt := by
  cases named : locations.filePath dataHome d with
  | error reason =>
    simp only [openFile, named] at failed
    rw [← (Prod.mk.inj failed).2]
  | ok path =>
  cases made : prepareDirectory disk path locations.createIfMissing with
  | error reason =>
    simp only [openFile, named, made] at failed
    rw [← (Prod.mk.inj failed).2]
  | ok prepared =>
    have same := databaseAt_prepareDirectory made
    rw [openFile_eq named made] at failed
    rw [databaseAt_of_openPath_error (accounted.of_databaseAt_eq same) failed, same]

/-- A handle that has been opened works on a database that was there or on a new one. All
others are as they were. -/
structure Visits (disk opened : CatalogDisk) (d : Deployment) (now : Calendar.Instant) (h : Handle)
    (l : Ledger) (home : Home) : Prop where
  sound : l.Sound
  serves : h.Serves opened l home
  healthy : h.isPoisoned = false
  deployment : h.deployment = d
  found : home.found disk = some l.database ∨ home.found disk = none ∧ l = .new d now
  others : ∀ place, home ≠ .file place → opened.databaseAt place = disk.databaseAt place

theorem Visits.of_databaseAt_eq {start : CatalogDisk} (visits : Visits disk opened d now h l home)
    (same : disk.databaseAt = start.databaseAt) : Visits start opened d now h l home := by
  have found : home.found disk = home.found start := by
    cases home with
    | memory => rfl
    | file place => exact congrFun same place
  refine ⟨visits.sound, visits.serves, visits.healthy, visits.deployment, ?_, ?_⟩
  · rw [← found]
    exact visits.found
  · intro place other
    rw [visits.others place other, same]

theorem visits_made (hidden : isPrivatePath path) (d : Deployment) (now : Calendar.Instant)
    (disk : CatalogDisk) :
    Visits disk ((made d path now).settled disk) d now (made d path now) (.new d now) .memory := by
  have left : (made d path now).settled disk = disk := by
    rw [Handle.settled, if_pos (.inl hidden)]
  rw [left]
  exact ⟨Ledger.sound_new d now, ⟨hidden, holds_made d path now⟩, rfl, rfl, .inr ⟨rfl, rfl⟩,
    fun _ _ => rfl⟩

/-- A handle on the database of a ledger that has just been written to a file. -/
theorem visits_put (own : h.deployment = d) (shown : isPrivatePath h.path = false)
    (healthy : h.isPoisoned = false) (reached : disk.locate h.path = .ok place)
    (file : disk.get? place ≠ some .directory) (sound : l.Sound) (holds : h.Holds l)
    (found : disk.databaseAt place = some l.database ∨
      disk.databaseAt place = none ∧ l = .new d now) :
    Visits disk (disk.put place (.database l.database)) d now h l (.file place) := by
  refine ⟨sound, ⟨shown, (Disk.keeps_put file _).locate reached, ?_, holds.deployment,
    holds.enforced⟩, healthy, own, found, ?_⟩
  · exact disk.get?_put_self (Disk.below_of_get?_ne file) _
  · intro there other
    exact Disk.databaseAt_put_other (fun here => other (congrArg Home.file here.symm)) _

theorem visits_of_openPath {create : Bool} {opening : Schema.Opening} (accounted : Accounted disk)
    (opens : openPath d path create now disk = (.ok (h, opening), opened)) :
    ∃ l home, Visits disk opened d now h l home := by
  by_cases hidden : isPrivatePath path
  · obtain ⟨rfl, rfl⟩ := openPath_absent (.inl hidden) opens
    exact ⟨_, _, visits_made hidden d now disk⟩
  have shown : isPrivatePath path = false := Bool.eq_false_iff.2 hidden
  -- What is opened where there is no database is new; a database that is there stays as it is.
  cases known : disk.database? path with
  | none =>
    obtain ⟨place, reached⟩ := locate_of_openPath shown opens
    have file := not_directory_of_openPath shown reached opens
    have vacant : disk.databaseAt place = none := by
      rw [← Disk.database?_eq_databaseAt reached, known]
    obtain ⟨rfl, rfl⟩ := openPath_absent (.inr known) opens
    rw [settled_eq shown (holds_made d path now) reached]
    exact ⟨_, _, visits_put rfl shown rfl reached file (Ledger.sound_new d now)
      (holds_made d path now) (.inr ⟨vacant, rfl⟩)⟩
  | some db =>
    obtain ⟨place, reached, found⟩ := Disk.exists_of_database? known
    have stored := Disk.databaseAt_eq_some_iff.2 found
    obtain ⟨l, sound, rfl⟩ := accounted place db stored
    have file : disk.get? place ≠ some .directory := by simp [found]
    rw [openPath_database shown reached found] at opens
    obtain ⟨outcome, rfl⟩ := Prod.mk.inj opens
    by_cases own : d = l.deployment
    · rw [if_pos own] at outcome
      cases outcome
      exact ⟨l, .file place, visits_put rfl shown rfl reached file sound ⟨own, rfl, rfl, rfl⟩
        (.inl stored)⟩
    · rw [if_neg own] at outcome
      cases outcome

theorem visits_of_openFile {opening : Schema.Opening} (accounted : Accounted disk)
    (opens : openFile d locations dataHome now disk = (.ok (h, opening), opened)) :
    ∃ l home, Visits disk opened d now h l home := by
  cases named : locations.filePath dataHome d with
  | error reason => simp [openFile, named] at opens
  | ok path =>
  cases made : prepareDirectory disk path locations.createIfMissing with
  | error reason => simp [openFile, named, made] at opens
  | ok prepared =>
    have same := databaseAt_prepareDirectory made
    rw [openFile_eq named made] at opens
    obtain ⟨l, home, visits⟩ := visits_of_openPath (accounted.of_databaseAt_eq same) opens
    exact ⟨l, home, visits.of_databaseAt_eq same⟩

theorem Serves.databaseAt_perform (serves : h.Serves disk l home) {α : Type} {action : Action α}
    {next : Ledger} (advances : (h.refreshed disk).Advances l (action (h.refreshed disk)).2 next)
    (there : Place) (other : home ≠ .file there) :
    (h.perform action disk).2.2.databaseAt there = disk.databaseAt there := by
  have follows := serves.refreshed.2.trans advances.follows
  show ((action (h.refreshed disk)).2.settled disk).databaseAt there = _
  cases home with
  | memory => rw [Handle.settled, if_pos (.inl (follows.path ▸ serves.1))]
  | file place =>
    obtain ⟨shown, reached, -⟩ := serves
    rw [← follows.path] at shown reached
    rw [settled_eq shown advances.holds reached]
    exact Disk.databaseAt_put_other (fun here => other (congrArg Home.file here.symm)) _

theorem Serves.left (serves : h.Serves disk l home) :
    home.left disk (some h) = some l.database := by
  cases home with
  | memory =>
    obtain ⟨hidden, holds⟩ := serves
    simp only [Home.left, Option.filter_some, hidden, if_true, Option.map_some, holds.database]
  | file place => exact Disk.databaseAt_eq_some_iff.2 serves.2.2.1

theorem Serves.left_memory (serves : h.Serves disk l (.file place)) :
    Home.memory.left disk (some h) = none := by
  simp [Home.left, serves.1]

end Handle

end ObsCatalog
