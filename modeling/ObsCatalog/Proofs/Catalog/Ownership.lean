import ObsCatalog.Proofs.Catalog.Sequence
import ObsCatalog.Proofs.Storage.Path

/-! Owners of files.

The deployment for which a file is first opened owns it. From then on the file is stamped with
the deployment, whatever is done through handles on it and however often it is opened: for its
owner it is opened as it is, and for the other deployment it is refused.
-/

set_option autoImplicit false

namespace ObsCatalog

open Sql (Database)

namespace Handle

variable {h : Handle} {d : Deployment} {disk prepared : CatalogDisk} {path : String}
  {place : Place} {create : Bool}

/-- A path leads to a place, perhaps only once its directory has been made. -/
def Leads (disk : CatalogDisk) (path : String) (create : Bool) (place : Place) : Prop :=
  ∃ prepared, prepareDirectory disk path create = .ok prepared ∧
    prepared.locate path = .ok place

theorem prepareDirectory_of_locate (reached : disk.locate path = .ok place) (create : Bool) :
    prepareDirectory disk path create = .ok disk := by
  unfold prepareDirectory
  split
  · next parent =>
    rw [Disk.makeDirectories_parent reached parent]
  · rfl

theorem leads_of_locate (reached : disk.locate path = .ok place) (create : Bool) :
    Leads disk path create place :=
  ⟨disk, prepareDirectory_of_locate reached create, reached⟩

theorem addsDirectories_prepareDirectory
    (made : prepareDirectory disk path create = .ok prepared) :
    Disk.AddsDirectories disk prepared := by
  unfold prepareDirectory at made
  split at made
  · split at made
    · next above =>
      cases made
      exact Disk.addsDirectories_makeDirectoriesFrom above
    · cases made
  · cases made
    exact fun _ _ => .inl

theorem databaseAt_prepareDirectory
    (made : prepareDirectory disk path create = .ok prepared) :
    prepared.databaseAt = disk.databaseAt :=
  Disk.databaseAt_of_addsDirectories (extends_prepareDirectory made)
    (addsDirectories_prepareDirectory made)

/-- There is no database at a place. -/
def Vacant (disk : CatalogDisk) (place : Place) : Prop :=
  ∀ db, disk.get? place ≠ some (.database db)

theorem Vacant.prepareDirectory (vacant : Vacant disk place)
    (made : Handle.prepareDirectory disk path create = .ok prepared) : Vacant prepared place :=
  fun db found => by
    rcases addsDirectories_prepareDirectory made place _ found with before | other
    · exact vacant db before
    · cases other

theorem Vacant.database? (vacant : Vacant disk place)
    (leads : ∀ other, disk.locate path = .ok other → other = place) :
    disk.database? path = none := by
  cases reached : disk.locate path with
  | error fault => simp only [Disk.database?, Disk.find, reached, bind, Except.bind]
  | ok other =>
    obtain rfl := leads other reached
    simp only [Disk.database?, Disk.find_eq reached]
    cases found : disk.get? other with
    | none => rfl
    | some entry =>
      cases entry with
      | directory => rfl
      | text content => rfl
      | database db => exact absurd found (vacant db)

/-- Where there is no database an attempt to open one that fails writes nothing. -/
theorem openPath_failed (absent : disk.database? path = none)
    (shown : isPrivatePath path = false) {now : Calendar.Instant} {fault : OpenFault}
    {written : CatalogDisk}
    (failed : openPath d path create now disk = (.error fault, written)) : written = disk := by
  have hidden : ¬ isPrivatePath path = true := by simp [shown]
  cases content : fileContent disk path create with
  | error reason =>
    simp only [openPath, if_neg hidden, content] at failed
    exact (Prod.mk.inj failed).2.symm
  | ok read =>
    cases read with
    | other =>
      simp only [openPath, if_neg hidden, content] at failed
      exact (Prod.mk.inj failed).2.symm
    | database db =>
      obtain rfl := fileContent_absent absent content
      rw [openPath_empty ((if_neg hidden).trans content)] at failed
      cases failed

end Handle

open Handle

/-- An attempt to open the file at a place for some deployment fails. -/
inductive Attempt (place : Place) : CatalogDisk → CatalogDisk → Prop where
  | failed {d : Deployment} {locations : Locations} {dataHome : Option String}
      {now : Calendar.Instant} {path : String} {disk next : CatalogDisk} {fault : OpenFault} :
      locations.filePath dataHome d = .ok path → isPrivatePath path = false →
      (∀ other, Leads disk path locations.createIfMissing other → other = place) →
      openFile d locations dataHome now disk = (.error fault, next) → Attempt place disk next

theorem Attempt.vacant {place : Place} {disk next : CatalogDisk} (attempt : Attempt place disk next)
    (vacant : Vacant disk place) : Vacant next place := by
  obtain ⟨named, shown, leads, failed⟩ := attempt
  rename_i d locations dataHome now path fault
  cases made : prepareDirectory disk path locations.createIfMissing with
  | error reason =>
    simp only [openFile, named, made] at failed
    exact (Prod.mk.inj failed).2 ▸ vacant
  | ok prepared =>
    rw [openFile_eq named made] at failed
    have prepares := vacant.prepareDirectory made
    have absent : prepared.database? path = none :=
      prepares.database? fun other reached => leads other ⟨prepared, made, reached⟩
    rw [openPath_failed absent shown failed]
    exact prepares

/-- The observations of a database have a sequence if and only if it generates their ids. -/
theorem Ledger.sequence_observationTable (l : Ledger) :
    l.observationTable.sequence.isSome ↔ l.deployment.idPolicy = .generated := by
  show ((Schema.observationSequence l.deployment.idPolicy).map _).isSome ↔ _
  cases l.deployment.idPolicy <;> simp [Schema.observationSequence]

namespace Session

variable {d : Deployment} {place : Place} {s : Session} {l : Ledger}

/-- Opening the file of a session leaves everything on the disk as it is. It succeeds for the
deployment of the database and for no other. -/
theorem Keeps.openFile (keeps : s.Keeps (.file place) l) {locations : Locations}
    {dataHome : Option String} {path : String} (named : locations.filePath dataHome d = .ok path)
    (shown : isPrivatePath path = false)
    (leads : Leads s.disk path locations.createIfMissing place) (now : Calendar.Instant) :
    ∃ next, Disk.Extends s.disk next ∧
      openFile d locations dataHome now s.disk =
        (if d = l.deployment then .ok (⟨d, path, .new l.database, "", false⟩, .current)
          else .error (.refused path
            (.connection d ("file holds the " ++ l.deployment.name ++ " schema"))), next) := by
  obtain ⟨prepared, made, reached⟩ := leads
  have stored : s.disk.get? place = some (.database l.database) := keeps.stored
  have grown := extends_prepareDirectory made
  have found := grown.entry place _ stored
  have other : prepared.get? place ≠ some .directory := by simp [found]
  refine ⟨_, grown.trans (Disk.extends_put_same (Disk.below_of_get?_ne other) found), ?_⟩
  rw [openFile_eq named made, openPath_database shown reached found]

/-- A file that is missing at first belongs to the deployment for which it is first opened. At
any time after that it is stamped with this deployment, all handles on it are of this
deployment, and its observations have a sequence if the deployment generates their ids. Opening
it once more leaves everything as it is; it succeeds for this deployment, with the database
that is there, and fails for the other one. -/
theorem Run.owned {start before after : CatalogDisk} {locations : Locations}
    {dataHome : Option String} {now : Calendar.Instant} {path : String} {h : Handle}
    {opening : Schema.Opening} (missing : start.get? place = none)
    (attempts : Relation.ReflTransGen (Attempt place) start before)
    (named : locations.filePath dataHome d = .ok path) (shown : isPrivatePath path = false)
    (leads : Leads before path locations.createIfMissing place)
    (opened : Handle.openFile d locations dataHome now before = (.ok (h, opening), after))
    (run : Run (.file place) ⟨[h], after⟩ s) :
    ∃ db, s.disk.get? place = some (.database db) ∧
      Schema.stamp db = .ok (some ⟨Schema.version, d.name⟩) ∧
      (∀ g ∈ s.handles, g.deployment = d) ∧
      (∃ observations, db.table Table.observation.name = .ok observations ∧
        (observations.sequence.isSome ↔ d = .monitorControl)) ∧
      ∀ other again home later toFile,
        again.filePath home other = .ok toFile → isPrivatePath toFile = false →
        (s.disk.locate toFile = .ok place ∨
          Leads s.disk toFile again.createIfMissing place) →
        ∃ result next, Handle.openFile other again home later s.disk = (result, next) ∧
          Disk.Extends s.disk next ∧ next.get? place = some (.database db) ∧
          (other = d → ∃ g, result = .ok (g, .current) ∧ g.deployment = d ∧
            g.connection.database = db) ∧
          (other ≠ d → ∃ fault, result = .error fault ∧ fault.fault other =
            .connection other ("file holds the " ++ d.name ++ " schema")) := by
  have vacant : Vacant before place := by
    have none : Vacant start place := fun db found => by simp [missing] at found
    -- Attempts that fail leave no database behind, so that the place is still vacant.
    clear leads opened
    induction attempts with
    | refl => exact none
    | tail _ attempt ih => exact attempt.vacant ih
  obtain ⟨prepared, made, reached⟩ := leads
  have absent : prepared.database? path = none :=
    (vacant.prepareDirectory made).database? fun other same =>
      Except.ok.inj (same.symm.trans reached)
  -- From here on the file is one of a fresh run, and the invariant of runs carries the rest.
  obtain ⟨made, keeps, -⟩ := (Fresh.file named shown made reached absent opened).keeps
  obtain ⟨l, keepsNow, grows⟩ := run.keeps keeps
  obtain rfl : l.deployment = d := grows.deployment
  have stored : s.disk.get? place = some (.database l.database) := keepsNow.stored
  refine ⟨l.database, stored, l.stamp_database,
    fun g member => (keepsNow.serves g member).2.2.2.1,
    ⟨l.observationTable, l.table_observation, ?_⟩, ?_⟩
  · rw [l.sequence_observationTable]
    cases l.deployment <;> simp [Deployment.idPolicy]
  · intro other again home later toFile named shown reaches
    have leads := reaches.elim (fun reached => leads_of_locate reached _) id
    obtain ⟨next, grown, outcome⟩ := keepsNow.openFile named shown leads later
    refine ⟨_, next, outcome, grown, grown.entry place _ stored, fun own => ?_, fun differs => ?_⟩
    · rw [if_pos own]
      exact ⟨_, rfl, own, rfl⟩
    · rw [if_neg differs]
      exact ⟨_, rfl, rfl⟩

/-- A missing file is opened for the one deployment and then refused for the other. -/
theorem owned_missingFile :
    ∃ (locations : Locations) (now : Calendar.Instant) (h : Handle) (opening : Schema.Opening)
      (start after next : CatalogDisk) (fault : OpenFault),
      start.get? ["hl.db"] = none ∧
      Handle.openFile .librarian locations none now start = (.ok (h, opening), after) ∧
      Handle.openFile .monitorControl locations none now after = (.error fault, next) ∧
      next.get? ["hl.db"] = after.get? ["hl.db"] ∧
      fault.fault .monitorControl =
        .connection .monitorControl "file holds the librarian schema" := by
  let locations : Locations := ⟨some "", "hl.db", "hl.db", true⟩
  let now : Calendar.Instant := ⟨0, 0, by decide, by decide, by decide, by decide⟩
  let disk : CatalogDisk := ⟨[], []⟩
  have named (d : Deployment) : locations.filePath none d = .ok "hl.db" := by cases d <;> cbv
  have shown : isPrivatePath "hl.db" = false := by decide
  have missing : disk.get? ["hl.db"] = none := rfl
  have reached : disk.locate "hl.db" = .ok ["hl.db"] := by
    have names : Path.names "hl.db" = ["hl.db"] := by decide +kernel
    have root : disk.get? [] = some .directory := rfl
    refine Disk.locate_eq_ok_iff.2 ⟨by decide, by decide, by decide +kernel, ?_⟩
    rw [ite_self, names]
    simp only [Disk.walk, root, List.nil_append]
    decide +kernel
  have content : fileContent disk "hl.db" true = .ok (.database .empty) := by
    have clean : "hl.db".toList.contains '\x00' = false := by decide
    simp only [fileContent, clean, disk.find_eq reached, missing, reached]
    rfl
  have made := prepareDirectory_of_locate reached true
  have opened := (openFile_eq (named .librarian) made now).trans
    (openPath_empty ((if_neg (by simp [shown])).trans content) now)
  have leads := leads_of_locate reached locations.createIfMissing
  -- The file that has been written is still where its path leads.
  have written := (Handle.made .librarian "hl.db" now).settled_eq shown
    (Handle.holds_made .librarian "hl.db" now) reached
  have still : ((Handle.made .librarian "hl.db" now).settled disk).locate "hl.db" =
      .ok ["hl.db"] := by
    rw [written]
    exact (Disk.keeps_put (by simp [missing]) _).locate reached
  obtain ⟨db, stored, -, -, -, opens⟩ :=
    Run.owned missing .refl (named .librarian) shown leads opened .refl
  obtain ⟨result, next, refused, -, found, -, other⟩ :=
    opens .monitorControl locations none now "hl.db" (named .monitorControl) shown (.inl still)
  obtain ⟨fault, rfl, shape⟩ := other (by decide)
  exact ⟨locations, now, _, _, disk, _, next, fault, missing, opened, refused,
    found.trans stored.symm, shape⟩

end Session

end ObsCatalog
