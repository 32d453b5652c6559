import ObsCatalog.Proofs.Catalog.Ownership
import ObsCatalog.Proofs.Catalog.Stamped

/-! Stamps that are accepted.

A file is opened if it has no stamp yet or has that of the deployment with the current version.
The columns of a stamp can hold anything, and whatever they hold instead is a reason to refuse the
file. No file is any different after it has been refused.
-/

set_option autoImplicit false

namespace ObsCatalog

open Sql (Cell Connection Database)

namespace Schema

variable {db next : Database} {d : Deployment} {now : Calendar.Instant} {v p : Cell}
  {fault : Sql.Fault} {reason : String}

/-- What the row of the stamp holds for the version and for the deployment. -/
def stored? (db : Database) : Option (Cell × Cell) := do
  let t ← db.table? stampName
  let r ← t.row? 1
  pure (Database.cellOf t r "version", Database.cellOf t r "deployment")

/-- The version has 32 bits. -/
def Fits (n : Int64) : Prop :=
  Int32.minValue.toInt ≤ n.toInt ∧ n.toInt ≤ Int32.maxValue.toInt

/-- What is said of a stamp that cannot be read. Its version is read first. -/
inductive Unreadable : Cell → Cell → Sql.Fault → Prop where
  | range {n : Int64} {p : Cell} : ¬ Fits n → Unreadable (.integer n) p (.columnRange n.toInt 0)
  | version {v p : Cell} : (∀ n, v ≠ .integer n) →
      Unreadable v p (.columnType v.kindName 0 "version")
  | mangled {n : Int64} {bytes : List UInt8} : Fits n →
      Unreadable (.integer n) (.mangled bytes) (.columnText 1 (brokenAt 0 (Text.decode bytes)))
  | deployment {n : Int64} {p : Cell} : Fits n → (∀ s, p ≠ .text s) → (∀ bytes, p ≠ .mangled bytes) →
      Unreadable (.integer n) p (.columnType p.kindName 1 "deployment")

/-- What is said of a stamp that is refused: of its deployment first, and then of its version. -/
inductive Refused (d : Deployment) : Option (Cell × Cell) → String → Prop where
  | unreadable {v p : Cell} {fault : Sql.Fault} : Unreadable v p fault →
      Refused d (some (v, p)) (CatalogFault.query fault).message
  | foreign {n : Int64} {s : String} : Fits n → s ≠ d.name →
      Refused d (some (.integer n, .text s)) ("file holds the " ++ s ++ " schema")
  | outdated {n : Int64} : Fits n → n.toInt ≠ version →
      Refused d (some (.integer n, .text d.name)) ("schema version " ++
        Text.integerText n.toInt ++ " is not supported (expected " ++ Text.integerText version ++ ")")

/-- There is no stamp, or the current one of the deployment. -/
def Accepted (d : Deployment) (stored : Option (Cell × Cell)) : Prop :=
  stored = none ∨ stored = some (.integer (Int64.ofInt version), .text d.name)

theorem versionOf_of_fits {n : Int64} (fits : Fits n) : versionOf (.integer n) = .ok n.toInt :=
  if_pos fits

theorem readable_or (v p : Cell) :
    (∃ n s, Fits n ∧ v = .integer n ∧ p = .text s) ∨ ∃ fault, Unreadable v p fault := by
  cases v with
  | integer n =>
    by_cases fits : Fits n
    · cases p with
      | text s => exact .inl ⟨n, s, fits, rfl, rfl⟩
      | mangled bytes => exact .inr ⟨_, .mangled fits⟩
      | _ => exact .inr ⟨_, .deployment fits nofun nofun⟩
    · exact .inr ⟨_, .range fits⟩
  | _ => exact .inr ⟨_, .version nofun⟩

def readStamp (v p : Cell) : Except Sql.Fault Stamp := do
  let version ← versionOf v
  let deployment ← deploymentOf p
  pure ⟨version, deployment⟩

theorem readStamp_of_fits {n : Int64} (fits : Fits n) (s : String) :
    readStamp (.integer n) (.text s) = .ok ⟨n.toInt, s⟩ := by
  simp only [readStamp, versionOf_of_fits fits, bind, Except.bind]
  rfl

theorem Unreadable.readStamp (unreadable : Unreadable v p fault) :
    readStamp v p = .error fault := by
  cases unreadable with
  | @range n p wide =>
    have failed : versionOf (.integer n) = .error (.columnRange n.toInt 0) := if_neg wide
    simp only [Schema.readStamp, failed, bind, Except.bind]
  | version other =>
    cases v with
    | integer n => exact absurd rfl (other n)
    | _ => rfl
  | mangled fits =>
    simp only [Schema.readStamp, versionOf_of_fits fits, bind, Except.bind]
    rfl
  | deployment fits notText notMangled =>
    simp only [Schema.readStamp, versionOf_of_fits fits, bind, Except.bind]
    cases p with
    | text s => exact absurd rfl (notText s)
    | mangled bytes => exact absurd rfl (notMangled bytes)
    | _ => rfl

theorem read_eq (v p : Cell) :
    (do
      let version ← versionOf v
      let deployment ← deploymentOf p
      pure (some ⟨version, deployment⟩)) = (readStamp v p).map some := by
  unfold readStamp
  cases versionOf v with
  | error fault => rfl
  | ok version => cases deploymentOf p <;> rfl

theorem stamp_of_table {rows : List Sql.StoredRow}
    (found : db.table? stampName = some { stampTable with rows }) :
    match stored? db with
    | none => stamp db = .ok none
    | some (v, p) => stamp db = (readStamp v p).map some := by
  -- The table has all its columns whatever its rows are, so only the row of the stamp matters.
  have columns : checkStampColumns { stampTable with rows } = .ok () := by
    have column (name : String) : Sql.Mention.columnOf { stampTable with rows } name =
        Sql.Mention.columnOf stampTable name := rfl
    simp only [checkStampColumns, column]
    rfl
  unfold stamp stored?
  simp only [found, columns]
  cases row : Sql.Table.row? { stampTable with rows } 1 with
  | none =>
    simp only [row, bind, Option.bind]
    rfl
  | some r =>
    simp only [row, bind, Option.bind]
    exact read_eq _ _

theorem Native.stamp_of_none (native : Native db) (none : stored? db = none) :
    stamp db = .ok .none := by
  cases found : db.table? stampName with
  | none =>
    unfold stamp
    rw [found]
  | some t =>
    obtain ⟨rows, rfl⟩ := native t found
    have read := stamp_of_table found
    rw [none] at read
    exact read

theorem Native.stamp_of_some (native : Native db) (known : stored? db = some (v, p)) :
    stamp db = (readStamp v p).map some := by
  cases found : db.table? stampName with
  | none =>
    unfold stored? at known
    rw [found] at known
    cases known
  | some t =>
    obtain ⟨rows, rfl⟩ := native t found
    have read := stamp_of_table found
    rw [known] at read
    exact read

theorem accepted_or_refused (d : Deployment) (stored : Option (Cell × Cell)) :
    Accepted d stored ∨ ∃ reason, Refused d stored reason := by
  cases stored with
  | none => exact .inl (.inl rfl)
  | some pair =>
    obtain ⟨v, p⟩ := pair
    rcases readable_or v p with ⟨n, s, fits, rfl, rfl⟩ | ⟨fault, unreadable⟩
    · by_cases own : s = d.name
      · subst own
        by_cases current : n.toInt = version
        · have same : n = Int64.ofInt version := by rw [← current, Int64.ofInt_toInt]
          exact .inl (.inr (by rw [same]))
        · exact .inr ⟨_, .outdated fits current⟩
      · exact .inr ⟨_, .foreign fits own⟩
    · exact .inr ⟨_, .unreadable unreadable⟩

theorem refusal_of_deployment {n : Int} {s : String} (other : s ≠ d.name) :
    refusal d ⟨n, s⟩ = some (.connection d ("file holds the " ++ s ++ " schema")) :=
  if_pos other

theorem refusal_of_version {n : Int} (other : n ≠ version) :
    refusal d ⟨n, d.name⟩ = some (.connection d ("schema version " ++ Text.integerText n ++
      " is not supported (expected " ++ Text.integerText version ++ ")")) := by
  have own : ¬ (⟨n, d.name⟩ : Stamp).deployment ≠ d.name := not_not_intro rfl
  rw [refusal, if_neg own, if_pos other]

theorem Native.prepare_fresh (native : Native db) (none : stamp db = .ok none) (d : Deployment)
    (now : Calendar.Instant) :
    ∃ c, prepare d now (.new db) = (.ok .created, c) ∧ c.isWritable = true := by
  obtain ⟨rows, found⟩ := native.createTables d
  obtain ⟨next, replaced, -⟩ := replace_stamp d now true found
  have written : writeStamp d now { Connection.new db with database := Schema.createTables d db } =
      .ok (1, ⟨next, true, 1, true⟩) := by
    show Connection.replace stampName 1 stampNames (stampCells d now) _ = _
    simp only [Connection.replace, Connection.new, replaced, bind, Except.bind, Connection.written,
      if_true]
    rfl
  have read : stamp (Connection.new db).database = .ok Option.none := none
  have made : Schema.createTables d (Connection.new db).database = Schema.createTables d db := rfl
  refine ⟨⟨next, true, 1, true⟩, ?_, rfl⟩
  simp only [prepare, read, made, written]

theorem Native.prepare_of_accepted (native : Native db) (accepted : Accepted d (stored? db))
    (now : Calendar.Instant) :
    ∃ opening c, prepare d now (.new db) = (.ok opening, c) ∧ c.isWritable = true := by
  rcases accepted with none | current
  · obtain ⟨c, done, writable⟩ := native.prepare_fresh (native.stamp_of_none none) d now
    exact ⟨.created, c, done, writable⟩
  · have stamped : Stamped db d := native.stamp_of_some current
    exact ⟨.current, _, stamped.prepare now, rfl⟩

theorem Native.prepare_of_refused (native : Native db) (refused : Refused d (stored? db) reason)
    (now : Calendar.Instant) :
    ∃ fault, prepare d now (.new db) = (.error fault, .new db) ∧
      ∀ path, (OpenFault.refused path fault).message = reason := by
  have refusing {s : Stamp} {reason : String} (read : stamp db = .ok (some s))
      (found : refusal d s = some (.connection d reason)) :
      prepare d now (.new db) = (.error (.connection d reason), .new db) := by
    have read : stamp (Connection.new db).database = .ok (some s) := read
    simp only [prepare, read, found]
  generalize known : stored? db = stored at refused
  cases refused with
  | @unreadable v p fault unreadable =>
    have read := native.stamp_of_some known
    rw [unreadable.readStamp] at read
    have read : stamp (Connection.new db).database = .error fault := read
    refine ⟨.query fault, ?_, fun _ => rfl⟩
    simp only [prepare, read]
  | foreign fits other =>
    have read := native.stamp_of_some known
    rw [readStamp_of_fits fits] at read
    exact ⟨_, refusing read (refusal_of_deployment other), fun _ => rfl⟩
  | outdated fits other =>
    have read := native.stamp_of_some known
    rw [readStamp_of_fits fits] at read
    exact ⟨_, refusing read (refusal_of_version other), fun _ => rfl⟩

theorem isWritable_prepare (d : Deployment) (now : Calendar.Instant) (c : Connection) :
    (prepare d now c).2.isWritable = c.isWritable := by
  unfold prepare
  split
  · rfl
  · dsimp only
    split
    · rfl
    · next id after written =>
      obtain ⟨⟨id, next⟩, -, written⟩ := Sql.ok_of_bind written
      obtain ⟨done, wrote, written⟩ := Sql.ok_of_bind written
      cases written
      unfold Connection.written at wrote
      split at wrote
      · cases wrote
        rfl
      · cases wrote
  · split <;> rfl

structure Kept (db next : Database) : Prop where
  tables : ∀ name t, db.table? name = some t → next.table? name = some t
  stamp : stored? next = stored? db
  native : Native db → next = db

theorem Kept.refl (db : Database) : Kept db db := ⟨fun _ _ => id, rfl, fun _ => rfl⟩

theorem table?_createTables {name : String} {t : Sql.Table} (found : db.table? name = some t)
    (d : Deployment) : (createTables d db).table? name = some t := by
  apply Database.table?_createTable_of_some
  apply Database.table?_createTable_of_some
  exact Database.table?_createTable_of_some found stampTable

theorem stored?_createTables (d : Deployment) (db : Database) :
    stored? (createTables d db) = stored? db := by
  unfold stored?
  cases found : db.table? stampName with
  | some t => rw [table?_createTables found]
  | none =>
    have made : (db.createTable stampTable).table? stampName = some stampTable := by
      obtain ⟨t, known, fresh⟩ := Database.table?_createTable db stampTable
      rw [fresh found] at known
      exact known
    have later := Database.table?_createTable_of_some
      (Database.table?_createTable_of_some made sourceTable) (observationTable d.idPolicy)
    have here : (createTables d db).table? stampName = some stampTable := later
    rw [here]
    rfl

/-- Whatever the reason, a database that is refused is as it was. -/
theorem kept_of_prepare {c : Connection} {fault : CatalogFault}
    (failed : prepare d now (.new db) = (.error fault, c)) : Kept db c.database := by
  have whole := failed
  unfold prepare at failed
  split at failed
  · cases failed
    exact .refl db
  · next none =>
    dsimp only at failed
    split at failed
    · -- The stamp could not be written after the tables were made, which are left.
      cases failed
      refine ⟨fun name t found => table?_createTables found d, stored?_createTables d db,
        fun native => ?_⟩
      obtain ⟨c, done, -⟩ := native.prepare_fresh none d now
      rw [done] at whole
      cases whole
    · cases failed
  · split at failed
    · cases failed
      exact .refl db
    · cases failed

theorem Kept.trans {last : Database} (first : Kept db next) (second : Kept next last) :
    Kept db last where
  tables name t found := second.tables name t (first.tables name t found)
  stamp := second.stamp.trans first.stamp
  native made := by
    have same := first.native made
    exact (second.native (same ▸ made)).trans same

end Schema

namespace Handle

variable {d : Deployment} {l : Locations} {dataHome : Option String} {now : Calendar.Instant}
  {disk prepared next : CatalogDisk} {path : String} {place : Place} {create : Bool}
  {db : Database} {reason : String}

def opened (d : Deployment) (l : Locations) (dataHome : Option String) (now : Calendar.Instant)
    (disk : CatalogDisk) : Except CatalogFault (Handle × Schema.Opening) :=
  (openFile d l dataHome now disk).1.mapError (·.fault d)

/-- What a failed attempt to open a file leaves of the entries of a disk. -/
inductive Left : Option (Entry Database) → Option (Entry Database) → Prop where
  | same (entry : Option (Entry Database)) : Left entry entry
  | directory : Left none (some .directory)
  | database {db next : Database} : Schema.Kept db next →
      Left (some (.database db)) (some (.database next))

theorem Left.trans {first second third : Option (Entry Database)} (left : Left first second)
    (right : Left second third) : Left first third := by
  cases left with
  | same => exact right
  | directory =>
    cases right with
    | same => exact .directory
  | database kept =>
    cases right with
    | same => exact .database kept
    | database more => exact .database (kept.trans more)

theorem left_prepareDirectory (made : prepareDirectory disk path create = .ok prepared)
    (place : Place) : Left (disk.get? place) (prepared.get? place) := by
  cases before : disk.get? place with
  | some entry =>
    rw [(extends_prepareDirectory made).entry place entry before]
    exact .same _
  | none =>
    cases after : prepared.get? place with
    | none => exact .same _
    | some entry =>
      rcases addsDirectories_prepareDirectory made place entry after with old | rfl
      · rw [before] at old
        cases old
      · exact .directory

theorem left_put (found : disk.get? place = some (.database db)) {after : Database}
    (kept : Schema.Kept db after) (there : Place) :
    Left (disk.get? there) ((disk.put place (.database after)).get? there) := by
  by_cases same : there = place
  · subst same
    have other : disk.get? there ≠ some .directory := by simp [found]
    rw [found, disk.get?_put_self (Disk.below_of_get?_ne other)]
    exact .database kept
  · rw [disk.get?_put_other same]
    exact .same _

theorem openPath_left {fault : OpenFault}
    (failed : openPath d path create now disk = (.error fault, next)) (place : Place) :
    Left (disk.get? place) (next.get? place) := by
  cases shown : isPrivatePath path with
  | true =>
    rw [openPath_empty (if_pos shown)] at failed
    cases failed
  | false =>
    cases known : disk.database? path with
    | none =>
      rw [openPath_failed known shown failed]
      exact .same _
    | some db =>
      -- A database that is refused is written back with all that it held.
      obtain ⟨there, reached, found⟩ := Disk.exists_of_database? known
      obtain ⟨result, c, prepared⟩ : ∃ result c, Schema.prepare d now (.new db) = (result, c) :=
        ⟨_, _, rfl⟩
      have writable : c.isWritable = true := by
        have same := Schema.isWritable_prepare d now (.new db)
        rw [prepared] at same
        exact same
      rw [openPath_found shown reached found prepared writable] at failed
      cases result with
      | ok opening => cases failed
      | error fault =>
        cases failed
        exact left_put found (Schema.kept_of_prepare prepared) place

theorem openFile_left {fault : OpenFault}
    (failed : openFile d l dataHome now disk = (.error fault, next)) (place : Place) :
    Left (disk.get? place) (next.get? place) := by
  cases named : l.filePath dataHome d with
  | error reason =>
    simp only [openFile, named] at failed
    cases failed
    exact .same _
  | ok path =>
    cases made : prepareDirectory disk path l.createIfMissing with
    | error reason =>
      simp only [openFile, named, made] at failed
      cases failed
      exact .same _
    | ok prepared =>
      -- The directory is made before the file is looked for, and it is not taken back.
      rw [openFile_eq named made] at failed
      exact (left_prepareDirectory made place).trans (openPath_left failed place)

/-- A path leads to the file of a database that has been made as one of a catalog. -/
structure Finds (d : Deployment) (l : Locations) (dataHome : Option String) (disk : CatalogDisk)
    (db : Database) : Prop where
  leads : ∃ path place, l.filePath dataHome d = .ok path ∧ isPrivatePath path = false ∧
    Leads disk path l.createIfMissing place ∧ disk.get? place = some (.database db)
  native : Schema.Native db

theorem Finds.opened (finds : Finds d l dataHome disk db)
    {result : Except CatalogFault Schema.Opening} {c : Connection}
    (prepares : Schema.prepare d now (.new db) = (result, c)) (writable : c.isWritable = true) :
    ∃ path, Handle.opened d l dataHome now disk =
      match result with
      | .ok opening => .ok (⟨d, path, c, "", false⟩, opening)
      | .error fault => .error (.connection d (OpenFault.refused path fault).message) := by
  obtain ⟨path, place, named, shown, ⟨prepared, made, reached⟩, stored⟩ := finds.leads
  have found := (extends_prepareDirectory made).entry place _ stored
  refine ⟨path, ?_⟩
  rw [Handle.opened, openFile_eq named made,
    openPath_found shown reached found prepares writable]
  cases result <;> rfl

theorem Finds.opened_of_accepted (finds : Finds d l dataHome disk db)
    (accepted : Schema.Accepted d (Schema.stored? db)) (now : Calendar.Instant) :
    ∃ pair, Handle.opened d l dataHome now disk = .ok pair := by
  obtain ⟨opening, c, prepared, writable⟩ := finds.native.prepare_of_accepted accepted now
  obtain ⟨path, done⟩ := finds.opened prepared writable
  exact ⟨_, done⟩

theorem Finds.opened_of_refused (finds : Finds d l dataHome disk db)
    (refused : Schema.Refused d (Schema.stored? db) reason) (now : Calendar.Instant) :
    Handle.opened d l dataHome now disk = .error (.connection d reason) := by
  obtain ⟨fault, prepared, told⟩ := finds.native.prepare_of_refused refused now
  obtain ⟨path, done⟩ := finds.opened prepared rfl
  rw [done, ← told path]

/-- A file with a database is opened if and only if it has no stamp or that of the deployment with
the current version; what is said of any other one depends on its deployment before its version.
An attempt to open a file that fails, for whatever reason, is reported for the deployment that it
was made for. It leaves all rows and stamps as they were, and a database that was made as one of a
catalog altogether. -/
theorem opens_by_stamp :
    (∀ {d : Deployment} {l : Locations} {dataHome : Option String} {disk : CatalogDisk}
        {db : Database}, Finds d l dataHome disk db → ∀ now : Calendar.Instant,
      ((∃ pair, opened d l dataHome now disk = .ok pair) ↔
        Schema.Accepted d (Schema.stored? db)) ∧
      ∀ reason, opened d l dataHome now disk = .error (.connection d reason) ↔
        Schema.Refused d (Schema.stored? db) reason) ∧
    ∀ {d : Deployment} {l : Locations} {dataHome : Option String} {now : Calendar.Instant}
        {disk : CatalogDisk} {fault : CatalogFault}, opened d l dataHome now disk = .error fault →
      (∃ reason, fault = .connection d reason) ∧
        ∀ place, Left (disk.get? place) ((openFile d l dataHome now disk).2.get? place) := by
  constructor
  · intro d l dataHome disk db finds now
    have outcome := Schema.accepted_or_refused d (Schema.stored? db)
    refine ⟨⟨fun ⟨pair, done⟩ => ?_, fun accepted => finds.opened_of_accepted accepted now⟩,
      fun reason => ⟨fun failed => ?_, fun refused => finds.opened_of_refused refused now⟩⟩
    · apply outcome.resolve_right
      rintro ⟨reason, refused⟩
      rw [finds.opened_of_refused refused now] at done
      cases done
    · rcases outcome with accepted | ⟨other, refused⟩
      · obtain ⟨pair, done⟩ := finds.opened_of_accepted accepted now
        rw [done] at failed
        cases failed
      · rw [finds.opened_of_refused refused now] at failed
        cases failed
        exact refused
  · intro d l dataHome now disk fault failed
    unfold opened at failed
    cases attempt : openFile d l dataHome now disk with
    | mk result next =>
      rw [attempt] at failed
      cases result with
      | ok pair => cases failed
      | error reason =>
        cases failed
        exact ⟨⟨reason.message, rfl⟩, fun place => openFile_left attempt place⟩

/-- Of a stamp with another deployment and another version, the deployment is reported. -/
theorem refused_by_deployment :
    ∃ (l : Locations) (now : Calendar.Instant) (disk : CatalogDisk) (rows : List Sql.StoredRow),
      disk.get? ["hl.db"] = some (.database ⟨[{ Schema.stampTable with rows }]⟩) ∧
      rows.map (·.cells) = [[.integer 2, .text "mc", .text ""]] ∧
      opened .librarian l none now disk =
        .error (.connection .librarian "file holds the mc schema") ∧
      Left (disk.get? ["hl.db"]) ((openFile .librarian l none now disk).2.get? ["hl.db"]) := by
  let l : Locations := ⟨some "", "hl.db", "hl.db", false⟩
  let now : Calendar.Instant := ⟨0, 0, by decide, by decide, by decide, by decide⟩
  let rows : List Sql.StoredRow := [⟨1, [.integer 2, .text "mc", .text ""]⟩]
  let db : Database := ⟨[{ Schema.stampTable with rows }]⟩
  let disk : CatalogDisk := ⟨[], [(["hl.db"], .database db)]⟩
  have named : l.filePath none .librarian = .ok "hl.db" := by cbv
  have reached : disk.locate "hl.db" = .ok ["hl.db"] :=
    Disk.locate_name rfl (by decide +kernel) (by decide) (by decide) (by decide) (by decide)
  have native : Schema.Native db := by
    intro t found
    cases found
    exact ⟨rows, rfl⟩
  have finds : Finds .librarian l none disk db :=
    ⟨⟨_, _, named, by decide, leads_of_locate reached _, rfl⟩, native⟩
  have refused : Schema.Refused .librarian (Schema.stored? db) "file holds the mc schema" :=
    .foreign (And.intro (by decide) (by decide) : Schema.Fits 2) (by decide : "mc" ≠ _)
  have failed := ((opens_by_stamp.1 finds now).2 _).2 refused
  exact ⟨l, now, disk, rows, rfl, rfl, failed, (opens_by_stamp.2 failed).2 _⟩

end Handle

end ObsCatalog
