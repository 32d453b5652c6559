import ObsCatalog.Proofs.Catalog.Operation
import ObsCatalog.Proofs.Storage.Disk
import Mathlib.Logic.Relation
import Mathlib.Tactic.Tauto

/-! Handles on one database.

A session is a disk with the handles that are open on one database, which lives in memory
or in a file. Whatever a session does, the database stays that of a ledger, and every
handle works on it: what one handle writes is what the others find.
-/

set_option autoImplicit false

namespace ObsCatalog

open Sql (Connection)

/-- Where a database lives. -/
inductive Home where
  | memory
  | file (place : Place)

namespace Handle

variable {h after : Handle} {l next : Ledger} {disk : CatalogDisk} {home : Home} {place : Place}
  {path : String} {db : Sql.Database}

/-- The handle works on the ledger of a database. What a handle on a file remembers of the
database does not matter, since it looks into the file first. -/
def Serves (h : Handle) (disk : CatalogDisk) (l : Ledger) : Home → Prop
  | .memory => isPrivatePath h.path ∧ h.Holds l
  | .file place => isPrivatePath h.path = false ∧ disk.locate h.path = .ok place ∧
      disk.get? place = some (.database l.database) ∧ h.deployment = l.deployment ∧
      h.connection.enforcesReferences = true

theorem Serves.refreshed (serves : h.Serves disk l home) :
    (h.refreshed disk).Holds l ∧ h.Follows (h.refreshed disk) := by
  cases home with
  | memory =>
    obtain ⟨hidden, holds⟩ := serves
    have same : h.refreshed disk = h := by rw [Handle.refreshed, if_pos hidden]
    rw [same]
    exact ⟨holds, rfl, rfl⟩
  | file place =>
    obtain ⟨shown, reached, found, deployment, enforced⟩ := serves
    have read : h.refreshed disk = { h with
        connection := { h.connection with database := l.database, isWritable := true } } := by
      rw [Handle.refreshed, if_neg (by simp [shown])]
      simp only [disk.database?_eq reached found]
    rw [read]
    exact ⟨⟨deployment, rfl, enforced, rfl⟩, rfl, rfl⟩

theorem lastInsertId_refreshed (h : Handle) (disk : CatalogDisk) :
    (h.refreshed disk).lastInsertId = h.lastInsertId := by
  unfold Handle.refreshed
  split
  · rfl
  · split <;> rfl

theorem settled_of_writable (shown : isPrivatePath h.path = false)
    (writable : h.connection.isWritable = true) (reached : disk.locate h.path = .ok place) :
    h.settled disk = disk.put place (.database h.connection.database) := by
  rw [Handle.settled, if_neg (by simp [shown, writable]), Disk.writeDatabase_eq reached]

theorem settled_eq (shown : isPrivatePath h.path = false) (holds : h.Holds l)
    (reached : disk.locate h.path = .ok place) :
    h.settled disk = disk.put place (.database l.database) := by
  rw [settled_of_writable shown holds.writable reached, holds.database]

theorem Serves.settled (serves : h.Serves disk l home) (holds : after.Holds next)
    (follows : h.Follows after) : after.Serves (after.settled disk) next home := by
  cases home with
  | memory => exact ⟨follows.path ▸ serves.1, holds⟩
  | file place =>
    obtain ⟨shown, reached, found, -, -⟩ := serves
    rw [← follows.path] at shown reached
    have other : disk.get? place ≠ some .directory := by simp [found]
    rw [settled_eq shown holds reached]
    exact ⟨shown, (Disk.keeps_put other _).locate reached,
      disk.get?_put_self (Disk.below_of_get?_ne other) _, holds.deployment, holds.enforced⟩

/-- Another handle on the same file finds what was written. -/
theorem Serves.settled_other {g : Handle} (serves : h.Serves disk l (.file place))
    (holds : after.Holds next) (follows : h.Follows after) (grows : l.Grows next)
    (other : g.Serves disk l (.file place)) :
    g.Serves (after.settled disk) next (.file place) := by
  obtain ⟨shown, reached, found, -, -⟩ := serves
  obtain ⟨otherShown, otherReached, -, deployment, enforced⟩ := other
  rw [← follows.path] at shown reached
  have file : disk.get? place ≠ some .directory := by simp [found]
  rw [settled_eq shown holds reached]
  exact ⟨otherShown, (Disk.keeps_put file _).locate otherReached,
    disk.get?_put_self (Disk.below_of_get?_ne file) _, deployment.trans grows.deployment.symm,
    enforced⟩

/-- An action that takes the handle of a ledger to the handle of a later one. -/
structure Advances (h : Handle) (l : Ledger) (after : Handle) (next : Ledger) : Prop where
  sound : next.Sound
  moves : l.Moves next
  holds : after.Holds next
  follows : h.Follows after

theorem Holds.advances_of_poisoned (holds : h.Holds l) (sound : l.Sound)
    (poisoned : h.isPoisoned = true) (disk : CatalogDisk) (op : Operation) :
    h.Advances l (op.action disk h).2 l := by
  rw [action_of_poisoned poisoned]
  exact ⟨sound, .refl l, holds, rfl, rfl⟩

theorem Holds.advances (holds : h.Holds l) (sound : l.Sound) (disk : CatalogDisk)
    (op : Operation) :
    ∃ next, h.Advances l (op.action disk h).2 next ∧
      (h.isPoisoned = false → l.Answers op (op.action disk h).1 next) := by
  by_cases poisoned : h.isPoisoned
  · exact ⟨l, holds.advances_of_poisoned sound poisoned disk op,
      fun healthy => by simp [healthy] at poisoned⟩
  · obtain ⟨next, operates⟩ := holds.operate sound (Bool.eq_false_iff.2 poisoned) disk op
    exact ⟨next, ⟨operates.sound, operates.moves, operates.holds, operates.follows⟩,
      fun _ => operates.answers⟩

theorem Holds.advances_delete (holds : h.Holds l) (sound : l.Sound) (t : Table) (id : Int64) :
    ∃ next, h.Advances l (run (Connection.delete t.name id) h).2 next := by
  by_cases poisoned : h.isPoisoned
  · rw [run_of_poisoned poisoned]
    exact ⟨l, sound, .refl l, holds, rfl, rfl⟩
  · rw [holds.delete (Bool.eq_false_iff.2 poisoned)]
    cases deleted : l.delete t id with
    | error fault => exact ⟨l, sound, .refl l, holds.withError _, rfl, rfl⟩
    | ok pair =>
      obtain ⟨count, next⟩ := pair
      have moves := Ledger.moves_of_delete deleted
      exact ⟨next, sound.of_delete deleted, moves,
        ⟨holds.deployment.trans moves.deployment.symm, rfl, holds.enforced, holds.writable⟩,
        rfl, rfl⟩

/-- A task that fails changes nothing. -/
theorem Holds.advances_failing (holds : h.Holds l) (sound : l.Sound) {α : Type}
    {task : Connection → Except CatalogFault (α × Connection)} {fault : CatalogFault}
    (failed : (execute task h).1 = .error fault) :
    h.Advances l (execute task h).2 l := by
  by_cases poisoned : h.isPoisoned
  · rw [execute_of_poisoned poisoned]
    exact ⟨sound, .refl l, holds, rfl, rfl⟩
  · have healthy : h.isPoisoned = false := Bool.eq_false_iff.2 poisoned
    cases done : task h.connection with
    | ok pair => simp [execute_ok healthy done] at failed
    | error fault =>
      rw [execute_error healthy done]
      exact ⟨sound, .refl l, holds.withError _, rfl, rfl⟩

theorem Follows.trans {g : Handle} (first : h.Follows g) (second : g.Follows after) :
    h.Follows after :=
  ⟨second.path.trans first.path, second.isPoisoned.trans first.isPoisoned⟩

theorem Serves.perform (serves : h.Serves disk l home) {α : Type} {action : Action α}
    (advances : (h.refreshed disk).Advances l (action (h.refreshed disk)).2 next) :
    (h.perform action disk).2.1.Serves (h.perform action disk).2.2 next home ∧
      h.Follows (h.perform action disk).2.1 := by
  have follows := serves.refreshed.2.trans advances.follows
  exact ⟨serves.settled advances.holds follows, follows⟩

theorem Serves.perform_other {g : Handle} (serves : h.Serves disk l (.file place)) {α : Type}
    {action : Action α}
    (advances : (h.refreshed disk).Advances l (action (h.refreshed disk)).2 next)
    (other : g.Serves disk l (.file place)) :
    g.Serves (h.perform action disk).2.2 next (.file place) :=
  serves.settled_other advances.holds (serves.refreshed.2.trans advances.follows)
    advances.moves.toGrows other

theorem fileContent_database (reached : disk.locate path = .ok place)
    (found : disk.get? place = some (.database db)) (create : Bool) :
    fileContent disk path create = .ok (.database db) := by
  have clean : path.toList.contains '\x00' = false := (Disk.locate_eq_ok_iff.1 reached).2.1
  simp only [fileContent, clean, disk.find_eq reached, found]
  rfl

theorem fileContent_absent (absent : disk.database? path = none) {create : Bool}
    (opened : fileContent disk path create = .ok (.database db)) : db = .empty := by
  unfold fileContent at opened
  split at opened
  · cases opened
  split at opened
  · next found => simp [Disk.database?, found] at absent
  · next content found =>
    cases blank : content.isEmpty <;> simp [blank] at opened
    exact opened.symm
  · cases opened
  · split at opened
    · cases opened
      rfl
    · cases opened

def made (d : Deployment) (path : String) (now : Calendar.Instant) : Handle :=
  ⟨d, path, ⟨(Ledger.new d now).database, true, 1, true⟩, "", false⟩

theorem holds_made (d : Deployment) (path : String) (now : Calendar.Instant) :
    (made d path now).Holds (.new d now) := ⟨rfl, rfl, rfl, rfl⟩

theorem inMemory_eq (d : Deployment) (now : Calendar.Instant) :
    inMemory d now = .ok (made d memoryPath now) := by
  simp only [inMemory, Ledger.prepare_empty, made]

theorem openPath_empty {d : Deployment} {create : Bool}
    (content : (if isPrivatePath path then .ok (.database .empty)
      else fileContent disk path create) = .ok (.database .empty)) (now : Calendar.Instant) :
    openPath d path create now disk =
      (.ok (made d path now, .created), (made d path now).settled disk) := by
  simp only [openPath, content, Ledger.prepare_empty, made]

theorem openPath_absent {d : Deployment} {create : Bool} {now : Calendar.Instant}
    {opening : Schema.Opening} {written : CatalogDisk}
    (absent : isPrivatePath path ∨ disk.database? path = none)
    (opened : openPath d path create now disk = (.ok (h, opening), written)) :
    h = made d path now ∧ written = (made d path now).settled disk := by
  -- Whatever could be opened was empty: a private database, or a file that was not there.
  have empty {db : Sql.Database} (content : (if isPrivatePath path then .ok (.database .empty)
      else fileContent disk path create) = .ok (.database db)) : db = .empty := by
    split at content
    · cases content
      rfl
    · next shown => exact fileContent_absent (absent.resolve_left shown) content
  cases content : (if isPrivatePath path then .ok (.database .empty)
      else fileContent disk path create : Except OpenFault FileContent) with
  | error fault => simp [openPath, content] at opened
  | ok read =>
    cases read with
    | other => simp [openPath, content] at opened
    | database db =>
      obtain rfl := empty content
      rw [openPath_empty content] at opened
      cases opened
      exact ⟨rfl, rfl⟩

/-- What has been prepared of the database at a place is written there, whatever comes of it. -/
theorem openPath_found {db : Sql.Database} (shown : isPrivatePath path = false)
    (reached : disk.locate path = .ok place) (found : disk.get? place = some (.database db))
    {d : Deployment} {now : Calendar.Instant} {result : Except CatalogFault Schema.Opening}
    {c : Connection} (prepared : Schema.prepare d now (.new db) = (result, c))
    (writable : c.isWritable = true) (create : Bool) :
    openPath d path create now disk =
      (match result with
        | .ok opening => .ok (⟨d, path, c, "", false⟩, opening)
        | .error fault => .error (.refused path fault), disk.put place (.database c.database)) := by
  have hidden : ¬ isPrivatePath path = true := by simp [shown]
  have writes : (⟨d, path, c, "", false⟩ : Handle).settled disk =
      disk.put place (.database c.database) := settled_of_writable shown writable reached
  unfold openPath
  simp only [if_neg hidden, fileContent_database reached found, prepared, writes]
  cases result <;> rfl

/-- The database of a ledger is opened for its own deployment, and stays as it is in any
case. -/
theorem openPath_database (shown : isPrivatePath path = false)
    (reached : disk.locate path = .ok place)
    (found : disk.get? place = some (.database l.database)) (d : Deployment) (create : Bool)
    (now : Calendar.Instant) :
    openPath d path create now disk =
      (if d = l.deployment then .ok (⟨d, path, .new l.database, "", false⟩, .current)
        else .error (.refused path
          (.connection d ("file holds the " ++ l.deployment.name ++ " schema"))),
        disk.put place (.database l.database)) := by
  have prepared := Ledger.prepare_database (c := .new l.database) rfl d now
  by_cases own : d = l.deployment
  · rw [if_pos own] at prepared ⊢
    exact openPath_found shown reached found prepared rfl create
  · rw [if_neg own] at prepared ⊢
    exact openPath_found shown reached found prepared rfl create

theorem openFile_eq {locations : Locations} {dataHome : Option String} {d : Deployment}
    {prepared : CatalogDisk} (named : locations.filePath dataHome d = .ok path)
    (made : prepareDirectory disk path locations.createIfMissing = .ok prepared)
    (now : Calendar.Instant) :
    openFile d locations dataHome now disk =
      openPath d path locations.createIfMissing now prepared := by
  simp only [openFile, named, made]

theorem extends_prepareDirectory {create : Bool} {prepared : CatalogDisk}
    (made : prepareDirectory disk path create = .ok prepared) : Disk.Extends disk prepared := by
  unfold prepareDirectory at made
  split at made
  · split at made
    · next above =>
      cases made
      exact Disk.extends_makeDirectoriesFrom above
    · cases made
  · cases made
    exact .refl disk

theorem not_directory_of_openPath {d : Deployment} {create : Bool} {now : Calendar.Instant}
    {opening : Schema.Opening} {written : CatalogDisk} (shown : isPrivatePath path = false)
    (reached : disk.locate path = .ok place)
    (opened : openPath d path create now disk = (.ok (h, opening), written)) :
    disk.get? place ≠ some .directory := by
  intro directory
  have clean : path.toList.contains '\x00' = false := (Disk.locate_eq_ok_iff.1 reached).2.1
  have content : fileContent disk path create = .error (.unopened path) := by
    simp only [fileContent, clean, disk.find_eq reached, directory]
    rfl
  simp only [openPath, shown, content] at opened
  cases opened

end Handle

structure Session where
  handles : List Handle
  disk : CatalogDisk

namespace Session

open Handle

/-- A handle on a database that has just been made: in memory, or in a file where there was
no database. -/
inductive Fresh (d : Deployment) : Home → Session → Prop where
  | memory {now : Calendar.Instant} {h : Handle} {disk : CatalogDisk} :
      inMemory d now = .ok h → Fresh d .memory ⟨[h], disk⟩
  | temporary {locations : Locations} {dataHome : Option String} {now : Calendar.Instant}
      {path : String} {before disk : CatalogDisk} {h : Handle} {opening : Schema.Opening} :
      locations.filePath dataHome d = .ok path → isPrivatePath path →
      openFile d locations dataHome now before = (.ok (h, opening), disk) →
      Fresh d .memory ⟨[h], disk⟩
  | file {locations : Locations} {dataHome : Option String} {now : Calendar.Instant}
      {path : String} {place : Place} {before prepared disk : CatalogDisk} {h : Handle}
      {opening : Schema.Opening} :
      locations.filePath dataHome d = .ok path → isPrivatePath path = false →
      prepareDirectory before path locations.createIfMissing = .ok prepared →
      prepared.locate path = .ok place → prepared.database? path = none →
      openFile d locations dataHome now before = (.ok (h, opening), disk) →
      Fresh d (.file place) ⟨[h], disk⟩

/-- What can be done through a handle. Rows can be deleted and tasks can fail in any way. -/
inductive Acts (h : Handle) (disk : CatalogDisk) : Handle → CatalogDisk → Prop where
  | operate (op : Operation) :
      Acts h disk (h.perform (op.action disk) disk).2.1 (h.perform (op.action disk) disk).2.2
  | delete (t : Table) (id : Int64) :
      Acts h disk (h.perform (run (Connection.delete t.name id)) disk).2.1
        (h.perform (run (Connection.delete t.name id)) disk).2.2
  | fail {α : Type} {task : Connection → Except CatalogFault (α × Connection)}
      {fault : CatalogFault} : (h.perform (execute task) disk).1 = .error fault →
      Acts h disk (h.perform (execute task) disk).2.1 (h.perform (execute task) disk).2.2
  | breakOff : Acts h disk h.breakOff disk

/-- One step of a session: something is done through one of the handles, a handle is
dropped, or the file is opened once more, for whatever deployment. -/
inductive Step (home : Home) : Session → Session → Prop where
  | act {front back : List Handle} {h after : Handle} {disk next : CatalogDisk} :
      Acts h disk after next →
      Step home ⟨front ++ h :: back, disk⟩ ⟨front ++ after :: back, next⟩
  | drop {front back : List Handle} {h : Handle} {disk : CatalogDisk} :
      Step home ⟨front ++ h :: back, disk⟩ ⟨front ++ back, disk⟩
  | reopen {d : Deployment} {locations : Locations} {dataHome : Option String}
      {now : Calendar.Instant} {path : String} {place : Place} {handles : List Handle}
      {disk prepared next : CatalogDisk}
      {result : Except OpenFault (Handle × Schema.Opening)} :
      home = .file place → locations.filePath dataHome d = .ok path →
      isPrivatePath path = false →
      prepareDirectory disk path locations.createIfMissing = .ok prepared →
      prepared.locate path = .ok place →
      openFile d locations dataHome now disk = (result, next) →
      Step home ⟨handles, disk⟩ ⟨result.toOption.toList.map (·.1) ++ handles, next⟩

abbrev Run (home : Home) : Session → Session → Prop := Relation.ReflTransGen (Step home)

structure Keeps (home : Home) (s : Session) (l : Ledger) : Prop where
  sound : l.Sound
  serves : ∀ h ∈ s.handles, h.Serves s.disk l home
  /-- A database in memory has no second handle; one in a file is there without any. -/
  stored : match home with
    | .memory => s.handles.length ≤ 1
    | .file place => s.disk.get? place = some (.database l.database)

variable {d : Deployment} {home : Home} {s next : Session} {l : Ledger}

theorem Fresh.keeps (fresh : Fresh d home s) :
    ∃ now, s.Keeps home (Ledger.new d now) ∧ ∀ h ∈ s.handles, h.isPoisoned = false := by
  cases fresh with
  | @memory now h disk new =>
    rw [inMemory_eq] at new
    cases new
    refine ⟨now, ⟨Ledger.sound_new d now, ?_, Nat.le_refl 1⟩, ?_⟩ <;>
      simp only [List.mem_singleton, forall_eq]
    · exact ⟨rfl, holds_made d memoryPath now⟩
    · rfl
  | @temporary locations dataHome now path before disk h opening named hidden opened =>
    cases prepares : prepareDirectory before path locations.createIfMissing with
    | error fault => simp [openFile, named, prepares] at opened
    | ok prepared =>
      rw [openFile_eq named prepares] at opened
      obtain ⟨rfl, -⟩ := openPath_absent (.inl hidden) opened
      refine ⟨now, ⟨Ledger.sound_new d now, ?_, Nat.le_refl 1⟩, ?_⟩ <;>
        simp only [List.mem_singleton, forall_eq]
      · exact ⟨hidden, holds_made d path now⟩
      · rfl
  | @file locations dataHome now path place before prepared disk h opening named shown prepares
      reached absent opened =>
    rw [openFile_eq named prepares] at opened
    have other := not_directory_of_openPath shown reached opened
    obtain ⟨rfl, rfl⟩ := openPath_absent (.inr absent) opened
    rw [settled_eq shown (holds_made d path now) reached]
    have found := prepared.get?_put_self (Disk.below_of_get?_ne other)
      (.database (Ledger.new d now).database)
    refine ⟨now, ⟨Ledger.sound_new d now, ?_, found⟩, ?_⟩ <;>
      simp only [List.mem_singleton, forall_eq]
    · exact ⟨shown, (Disk.keeps_put other _).locate reached, found, rfl, rfl⟩
    · rfl

theorem Keeps.alone {front back : List Handle} {h : Handle} {disk : CatalogDisk}
    (keeps : (⟨front ++ h :: back, disk⟩ : Session).Keeps .memory l) : front = [] ∧ back = [] := by
  have single : (front ++ h :: back).length ≤ 1 := keeps.stored
  simp only [List.length_append, List.length_cons] at single
  exact ⟨List.length_eq_zero_iff.1 (by omega), List.length_eq_zero_iff.1 (by omega)⟩

theorem Keeps.here {front back : List Handle} {h : Handle} {disk : CatalogDisk}
    (keeps : (⟨front ++ h :: back, disk⟩ : Session).Keeps home l) : h.Serves disk l home :=
  keeps.serves h (by simp)

theorem Keeps.healthy {front back : List Handle} {h : Handle} {disk : CatalogDisk}
    (keeps : (⟨front ++ h :: back, disk⟩ : Session).Keeps home l)
    (healthy : h.isPoisoned = false) :
    (h.refreshed disk).Holds l ∧ (h.refreshed disk).isPoisoned = false := by
  obtain ⟨holds, follows⟩ := keeps.here.refreshed
  exact ⟨holds, follows.isPoisoned.trans healthy⟩

/-- A handle that serves a later ledger takes the place of the one it comes from. -/
theorem Keeps.replace {front back : List Handle} {h after : Handle} {disk written : CatalogDisk}
    {later : Ledger} (keeps : (⟨front ++ h :: back, disk⟩ : Session).Keeps home l)
    (sound : later.Sound) (serves : after.Serves written later home)
    (others : ∀ (place : Place) (g : Handle), home = .file place → g.Serves disk l home →
      g.Serves written later home) :
    (⟨front ++ after :: back, written⟩ : Session).Keeps home later := by
  refine ⟨sound, fun g member => ?_, ?_⟩
  · have known : g = after ∨ g ∈ front ++ back := by
      simp only [List.mem_append, List.mem_cons] at member ⊢
      tauto
    rcases known with rfl | other
    · exact serves
    have before : g ∈ front ++ h :: back := by
      simp only [List.mem_append, List.mem_cons] at other ⊢
      tauto
    -- In memory the handle was alone; on a file the others look there again.
    cases home with
    | memory =>
      obtain ⟨rfl, rfl⟩ := keeps.alone
      cases other
    | file place => exact others place g rfl (keeps.serves g before)
  · cases home with
    | memory =>
      obtain ⟨rfl, rfl⟩ := keeps.alone
      exact Nat.le_refl 1
    | file place => exact serves.2.2.1

theorem Keeps.perform {front back : List Handle} {h : Handle} {disk : CatalogDisk}
    {later : Ledger} {α : Type} {action : Action α}
    (keeps : (⟨front ++ h :: back, disk⟩ : Session).Keeps home l)
    (advances : (h.refreshed disk).Advances l (action (h.refreshed disk)).2 later) :
    (⟨front ++ (h.perform action disk).2.1 :: back, (h.perform action disk).2.2⟩ :
      Session).Keeps home later := by
  refine keeps.replace advances.sound (keeps.here.perform advances).1 ?_
  rintro place g rfl other
  exact keeps.here.perform_other advances other

theorem Keeps.breakOff {front back : List Handle} {h : Handle} {disk : CatalogDisk}
    (keeps : (⟨front ++ h :: back, disk⟩ : Session).Keeps home l) :
    (⟨front ++ h.breakOff :: back, disk⟩ : Session).Keeps home l := by
  have serves := keeps.here
  refine keeps.replace keeps.sound ?_ fun _ _ _ other => other
  cases home with
  | memory =>
    obtain ⟨hidden, holds⟩ := serves
    exact ⟨hidden, holds.deployment, holds.database, holds.enforced, holds.writable⟩
  | file place => exact serves

theorem Keeps.drop {front back : List Handle} {h : Handle} {disk : CatalogDisk}
    (keeps : (⟨front ++ h :: back, disk⟩ : Session).Keeps home l) :
    (⟨front ++ back, disk⟩ : Session).Keeps home l := by
  refine ⟨keeps.sound, fun g member => keeps.serves g ?_, ?_⟩
  · simp only [List.mem_append, List.mem_cons] at member ⊢
    tauto
  · cases home with
    | memory =>
      obtain ⟨rfl, rfl⟩ := keeps.alone
      exact Nat.zero_le 1
    | file place => exact keeps.stored

/-- Opening the file once more leaves the database as it is, be it for the deployment of the
database or for another one. -/
theorem Keeps.reopen {locations : Locations} {dataHome : Option String} {now : Calendar.Instant}
    {path : String} {place : Place} {handles : List Handle} {disk prepared written : CatalogDisk}
    {result : Except OpenFault (Handle × Schema.Opening)}
    (keeps : (⟨handles, disk⟩ : Session).Keeps (.file place) l)
    (named : locations.filePath dataHome d = .ok path) (shown : isPrivatePath path = false)
    (made : prepareDirectory disk path locations.createIfMissing = .ok prepared)
    (reached : prepared.locate path = .ok place)
    (opened : openFile d locations dataHome now disk = (result, written)) :
    (⟨result.toOption.toList.map (·.1) ++ handles, written⟩ : Session).Keeps (.file place) l := by
  -- Directories may be made, and the database is written back as it was read.
  have grown := extends_prepareDirectory made
  have found : prepared.get? place = some (.database l.database) :=
    grown.entry place _ keeps.stored
  have other : prepared.get? place ≠ some .directory := by simp [found]
  rw [openFile_eq named made, openPath_database shown reached found] at opened
  obtain ⟨outcome, rfl⟩ := Prod.mk.inj opened
  have stored := prepared.get?_put_self (Disk.below_of_get?_ne other) (.database l.database)
  have kept := Disk.keeps_put other (.database l.database)
  refine ⟨keeps.sound, fun g member => ?_, stored⟩
  rcases List.mem_append.1 member with added | old
  · by_cases own : d = l.deployment
    · rw [if_pos own] at outcome
      subst outcome
      rw [List.mem_singleton.1 added]
      exact ⟨shown, kept.locate reached, stored, own, rfl⟩
    · rw [if_neg own] at outcome
      subst outcome
      cases added
  · obtain ⟨otherShown, otherReached, -, deployment, enforced⟩ := keeps.serves g old
    exact ⟨otherShown, kept.locate (grown.keeps.locate otherReached), stored, deployment,
      enforced⟩

/-- Whatever is done through a handle leaves the database of a later ledger. -/
theorem Acts.keeps {front back : List Handle} {h after : Handle} {disk written : CatalogDisk}
    (acts : Acts h disk after written)
    (keeps : (⟨front ++ h :: back, disk⟩ : Session).Keeps home l) :
    ∃ later, (⟨front ++ after :: back, written⟩ : Session).Keeps home later ∧ l.Moves later := by
  have holds := keeps.here.refreshed.1
  -- All but breaking off is performed on what the disk has and advances the handle.
  cases acts with
  | operate op =>
    obtain ⟨later, advances, -⟩ := holds.advances keeps.sound disk op
    exact ⟨later, keeps.perform advances, advances.moves⟩
  | delete t id =>
    obtain ⟨later, advances⟩ := holds.advances_delete keeps.sound t id
    exact ⟨later, keeps.perform advances, advances.moves⟩
  | fail failed => exact ⟨l, keeps.perform (holds.advances_failing keeps.sound failed), .refl l⟩
  | breakOff => exact ⟨l, keeps.breakOff, .refl l⟩

/-- A step leaves the database of a later ledger, and every handle works on it. -/
theorem Step.keeps (step : Step home s next) (keeps : s.Keeps home l) :
    ∃ later, next.Keeps home later ∧ l.Moves later := by
  cases step with
  | act acts => exact acts.keeps keeps
  | drop => exact ⟨l, keeps.drop, .refl l⟩
  | reopen here named shown made reached opened =>
    subst here
    exact ⟨l, keeps.reopen named shown made reached opened, .refl l⟩

theorem Run.keeps (run : Run home s next) (keeps : s.Keeps home l) :
    ∃ later, next.Keeps home later ∧ l.Grows later := by
  induction run with
  | refl => exact ⟨l, keeps, .refl l⟩
  | tail _ step ih =>
    obtain ⟨middle, keeps, early⟩ := ih
    obtain ⟨later, keeps, late⟩ := step.keeps keeps
    exact ⟨later, keeps, early.trans late.toGrows⟩

end Session

end ObsCatalog
