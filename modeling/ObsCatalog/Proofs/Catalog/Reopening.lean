import ObsCatalog.Proofs.Catalog.Ownership
import ObsCatalog.Proofs.Catalog.Stamped
import ObsCatalog.Proofs.Catalog.Store

/-! Handles that are dropped and opened again.

What operations answer and what they leave in a file depends on nothing that a handle
remembers. So a sequence of operations may be cut into pieces, each on a handle of its own,
and nobody can tell from the answers.
-/

set_option autoImplicit false

namespace ObsCatalog

open Sql (Connection Database)

/-- An answer without the size of the file. -/
def Store.Answer.unsized (a : Store.Answer) : Store.Answer := ⟨a.1, a.1.unsized a.2⟩

namespace Operation

def effects (d : Deployment) : Database → List Operation → List Store.Answer × Database
  | db, [] => ([], db)
  | db, op :: rest =>
    let (result, next) := op.effect d db
    let (answers, last) := effects d next rest
    (⟨op, result⟩ :: answers, last)

theorem effects_append (d : Deployment) (db : Database) (first second : List Operation) :
    effects d db (first ++ second) =
      ((effects d db first).1 ++ (effects d (effects d db first).2 second).1,
        (effects d (effects d db first).2 second).2) := by
  induction first generalizing db with
  | nil => rfl
  | cons op rest ih => simp only [List.cons_append, effects, ih]

end Operation

theorem Schema.Stamped.effects {db : Database} {d : Deployment} (stamped : Stamped db d)
    (ops : List Operation) : Stamped (Operation.effects d db ops).2 d := by
  induction ops generalizing db with
  | nil => exact stamped
  | cons op rest ih => exact ih (stamped.effect op)

namespace Handle

open Schema (Stamped Native)

variable {h : Handle} {d : Deployment} {disk opened : CatalogDisk} {path : String}
  {place : Place} {db : Database}

structure Stores (disk : CatalogDisk) (path : String) (place : Place) (db : Database) : Prop where
  shown : isPrivatePath path = false
  reached : disk.locate path = .ok place
  found : disk.get? place = some (.database db)

structure On (h : Handle) (disk : CatalogDisk) (d : Deployment) (path : String) (place : Place)
    (db : Database) : Prop where
  stores : Stores disk path place db
  deployment : h.deployment = d
  path : h.path = path
  enforced : h.connection.enforcesReferences = true
  healthy : h.isPoisoned = false

theorem Stores.extends {next : CatalogDisk} (stores : Stores disk path place db)
    (grown : Disk.Extends disk next) : Stores next path place db :=
  ⟨stores.shown, grown.keeps.locate stores.reached, grown.entry place _ stores.found⟩

theorem Stores.put (stores : Stores disk path place db) (next : Database) :
    Stores (disk.put place (.database next)) path place next := by
  have file : disk.get? place ≠ some .directory := by simp [stores.found]
  exact ⟨stores.shown, (Disk.keeps_put file _).locate stores.reached,
    disk.get?_put_self (Disk.below_of_get?_ne file) _⟩

theorem On.refreshed (on : h.On disk d path place db) :
    (h.refreshed disk).Works d db ∧ (h.refreshed disk).path = path := by
  obtain ⟨⟨shown, reached, found⟩, deployment, rfl, enforced, healthy⟩ := on
  have read : h.refreshed disk = { h with
      connection := { h.connection with database := db, isWritable := true } } := by
    rw [Handle.refreshed, if_neg (by simp [shown])]
    simp only [disk.database?_eq reached found]
  rw [read]
  exact ⟨⟨deployment, rfl, enforced, rfl, healthy⟩, rfl⟩

/-- An operation through a handle on a file has its effect on the database in the file. -/
theorem On.perform (on : h.On disk d path place db) (op : Operation) :
    op.unsized (h.perform (op.action disk) disk).1 = (op.effect d db).1 ∧
      (h.perform (op.action disk) disk).2.1.On (h.perform (op.action disk) disk).2.2 d path place
        (op.effect d db).2 ∧
      (h.perform (op.action disk) disk).2.2 = disk.put place (.database (op.effect d db).2) := by
  obtain ⟨works, same⟩ := on.refreshed
  obtain ⟨answered, after, kept⟩ := op.of_works works disk
  have here := kept.trans same
  have written : (op.action disk (h.refreshed disk)).2.settled disk =
      disk.put place (.database (op.effect d db).2) := by
    rw [settled_of_writable (here ▸ on.stores.shown) after.writable
      (by rw [here]; exact on.stores.reached), after.database]
  refine ⟨answered, ⟨?_, after.deployment, here, after.enforced, after.healthy⟩, written⟩
  show Stores ((op.action disk (h.refreshed disk)).2.settled disk) path place _
  rw [written]
  exact on.stores.put _

def afterwards (h : Handle) (disk : CatalogDisk) : List Operation → Handle × CatalogDisk
  | [] => (h, disk)
  | op :: rest =>
    let (_, after, written) := h.perform (op.action disk) disk
    after.afterwards written rest

theorem On.answers (on : h.On disk d path place db) (ops : List Operation) :
    (h.answers disk ops).map Store.Answer.unsized = (Operation.effects d db ops).1 ∧
      (h.afterwards disk ops).1.On (h.afterwards disk ops).2 d path place
        (Operation.effects d db ops).2 := by
  induction ops generalizing h disk db with
  | nil => exact ⟨rfl, on⟩
  | cons op rest ih =>
    obtain ⟨answered, next, -⟩ := on.perform op
    obtain ⟨answers, last⟩ := ih next
    refine ⟨?_, last⟩
    rw [Handle.answers, List.map_cons, answers]
    exact congrArg (fun result => (⟨op, result⟩ : Store.Answer) :: _) answered

theorem Stores.openFile (stores : Stores disk path place db) (stamped : Stamped db d)
    {locations : Locations} {dataHome : Option String}
    (named : locations.filePath dataHome d = .ok path) (now : Calendar.Instant) :
    ∃ g, Handle.openFile d locations dataHome now disk =
        (.ok (g, .current), disk.put place (.database db)) ∧
      g.On (disk.put place (.database db)) d path place db := by
  obtain ⟨shown, reached, found⟩ := stores
  have content := fileContent_database reached found locations.createIfMissing
  have prepared := stamped.prepare now
  have written : Handle.settled ⟨d, path, .new db, "", false⟩ disk =
      disk.put place (.database db) := settled_of_writable shown rfl reached
  refine ⟨⟨d, path, .new db, "", false⟩, ?_, ⟨Stores.put ⟨shown, reached, found⟩ db, rfl, rfl, rfl,
    rfl⟩⟩
  rw [openFile_eq named (prepareDirectory_of_locate reached _)]
  simp only [openPath, if_neg (show ¬ isPrivatePath path = true by simp [shown]), content,
    prepared, written]

/-- A file that is opened without a stamp has no table of another making in the place of the
stamp table. -/
def Adoptable (disk : CatalogDisk) (path : String) (create : Bool) : Prop :=
  ∀ prepared db, prepareDirectory disk path create = .ok prepared →
    prepared.database? path = some db → Native db

theorem locate_of_fileContent {create : Bool} {content : FileContent}
    (opens : fileContent disk path create = .ok content) : ∃ place, disk.locate path = .ok place := by
  cases reached : disk.locate path with
  | ok place => exact ⟨place, rfl⟩
  | error fault =>
    have missing : disk.find path = .error fault := by
      simp only [Disk.find, reached, bind, Except.bind]
    unfold fileContent at opens
    simp only [missing, reached] at opens
    split at opens
    · cases opens
    · simp [Except.isOk, Except.toBool] at opens

theorem Adoptable.native {create : Bool} {prepared : CatalogDisk}
    (adoptable : Adoptable disk path create)
    (made : prepareDirectory disk path create = .ok prepared)
    (content : fileContent prepared path create = .ok (.database db)) : Native db := by
  cases known : prepared.database? path with
  | none =>
    rw [fileContent_absent known content]
    exact Schema.native_empty
  | some other =>
    have native := adoptable prepared other made known
    unfold Disk.database? at known
    split at known
    · next found =>
      cases known
      simp only [fileContent, found] at content
      split at content
      · cases content
      · cases content
        exact native
    · cases known

/-- Where there is no database there is none to be adopted. -/
theorem adoptable_of_vacant (vacant : ∀ place, disk.databaseAt place = none) (path : String)
    (create : Bool) : Adoptable disk path create := by
  intro prepared db made known
  obtain ⟨place, -, found⟩ := Disk.exists_of_database? known
  rw [← Disk.databaseAt_eq_some_iff, databaseAt_prepareDirectory made, vacant] at found
  cases found

/-- A handle that has been opened on a file works on the database there, and this carries
the stamp of the deployment. -/
theorem on_of_openFile {locations : Locations} {dataHome : Option String}
    {now : Calendar.Instant} {opening : Schema.Opening}
    (named : locations.filePath dataHome d = .ok path) (shown : isPrivatePath path = false)
    (native : opening = .current ∨ Adoptable disk path locations.createIfMissing)
    (opens : openFile d locations dataHome now disk = (.ok (h, opening), opened)) :
    ∃ place db, h.On opened d path place db ∧ Stamped db d := by
  have hidden : ¬ isPrivatePath path = true := by simp [shown]
  -- The stages of opening are taken apart one by one; each failure contradicts the success.
  cases made : prepareDirectory disk path locations.createIfMissing with
  | error fault => simp [openFile, named, made] at opens
  | ok prepared =>
  rw [openFile_eq named made] at opens
  cases content : fileContent prepared path locations.createIfMissing with
  | error fault => simp [openPath, hidden, content] at opens
  | ok read =>
  cases read with
  | other => simp [openPath, hidden, content] at opens
  | database db =>
  obtain ⟨place, reached⟩ := locate_of_fileContent content
  have file := not_directory_of_openPath shown reached opens
  cases prepares : Schema.prepare d now (.new db) with | mk result c =>
  cases result with
  | error fault => simp [openPath, hidden, content, prepares] at opens
  | ok found =>
  simp only [openPath, if_neg hidden, content, prepares, Prod.mk.injEq, Except.ok.injEq] at opens
  obtain ⟨⟨rfl, rfl⟩, rfl⟩ := opens
  obtain ⟨stamped, enforced, writable⟩ := Schema.stamped_of_prepare prepares
    (native.imp_right fun adoptable => adoptable.native made content)
  refine ⟨place, c.database, ⟨?_, rfl, rfl, enforced, rfl⟩, stamped⟩
  rw [settled_of_writable shown writable reached]
  exact ⟨shown, (Disk.keeps_put file _).locate reached,
    prepared.get?_put_self (Disk.below_of_get?_ne file) _⟩

/-- What is answered when operations are cut into pieces, and the disk that is left. After
each piece the handle is dropped and the file is opened again. -/
def answersInPieces (d : Deployment) (locations : Locations) (dataHome : Option String)
    (h : Handle) (disk : CatalogDisk) (ops : List Operation) :
    List (Calendar.Instant × List Operation) →
      Except OpenFault (List Store.Answer × CatalogDisk)
  | [] => .ok (h.answers disk ops, (h.afterwards disk ops).2)
  | (now, next) :: rest =>
    match openFile d locations dataHome now (h.afterwards disk ops).2 with
    | (.error fault, _) => .error fault
    | (.ok (again, _), opened) =>
      match answersInPieces d locations dataHome again opened next rest with
      | .error fault => .error fault
      | .ok (answers, last) => .ok (h.answers disk ops ++ answers, last)

theorem On.answersInPieces (on : h.On disk d path place db) (stamped : Stamped db d)
    {locations : Locations} {dataHome : Option String}
    (named : locations.filePath dataHome d = .ok path) (ops : List Operation)
    (rest : List (Calendar.Instant × List Operation)) :
    ∃ answers last,
      Handle.answersInPieces d locations dataHome h disk ops rest = .ok (answers, last) ∧
      answers.map Store.Answer.unsized =
        (Operation.effects d db (ops ++ rest.flatMap (·.2))).1 ∧
      Stores last path place (Operation.effects d db (ops ++ rest.flatMap (·.2))).2 := by
  induction rest generalizing h disk db ops with
  | nil =>
    obtain ⟨answered, after⟩ := on.answers ops
    refine ⟨_, _, rfl, ?_, ?_⟩
    · rw [List.flatMap_nil, List.append_nil, answered]
    · rw [List.flatMap_nil, List.append_nil]
      exact after.stores
  | cons piece rest ih =>
    obtain ⟨now, next⟩ := piece
    obtain ⟨answered, after⟩ := on.answers ops
    -- The handle that is opened again works on what the operations have left.
    have stampedAfter := stamped.effects ops
    obtain ⟨g, opens, again⟩ := after.stores.openFile stampedAfter named now
    obtain ⟨answers, last, pieces, others, stores⟩ := ih again stampedAfter next
    rw [List.flatMap_cons, Operation.effects_append]
    refine ⟨h.answers disk ops ++ answers, last, ?_, ?_, stores⟩
    · simp only [Handle.answersInPieces, opens, pieces]
    · rw [List.map_append, answered, others]

/-- Whatever pieces operations on a file are cut into, and whenever the file is opened again
in between, the answers are those of one handle and the file ends as it would with one. -/
theorem answers_in_pieces {locations : Locations} {dataHome : Option String}
    {now : Calendar.Instant} {opening : Schema.Opening}
    (named : locations.filePath dataHome d = .ok path) (shown : isPrivatePath path = false)
    (native : opening = .current ∨ Adoptable disk path locations.createIfMissing)
    (opens : openFile d locations dataHome now disk = (.ok (h, opening), opened))
    (ops : List Operation) (rest : List (Calendar.Instant × List Operation)) :
    ∃ answers last db,
      Handle.answersInPieces d locations dataHome h opened ops rest = .ok (answers, last) ∧
      answers.map Store.Answer.unsized =
        (h.answers opened (ops ++ rest.flatMap (·.2))).map Store.Answer.unsized ∧
      last.database? path = some db ∧
      (h.afterwards opened (ops ++ rest.flatMap (·.2))).2.database? path = some db := by
  obtain ⟨place, db, on, stamped⟩ := on_of_openFile named shown native opens
  obtain ⟨answers, last, pieces, answered, left⟩ := on.answersInPieces stamped named ops rest
  obtain ⟨whole, after⟩ := on.answers (ops ++ rest.flatMap (·.2))
  exact ⟨answers, last, _, pieces, answered.trans whole.symm,
    Disk.database?_eq left.reached left.found,
    Disk.database?_eq after.stores.reached after.stores.found⟩

end Handle

end ObsCatalog
