import ObsCatalog.Catalog.Records
import ObsCatalog.Settings.Basic
import ObsCatalog.Storage.Disk
import ObsCatalog.Text.Quoted

/-! Databases in files.

Opening makes the directory of the file if missing files may be created, and an empty
file counts as a missing one. A handle works on what the file holds at the time, and
what it changes is in the file at once. When the file has been removed the handle can
still be read through, but no longer written through.
-/

set_option autoImplicit false

namespace ObsCatalog

/-- A disk whose databases are those of catalogs. -/
abbrev CatalogDisk := Disk Sql.Database

inductive OpenFault where
  | noDirectory (fault : SettingsFault)
  | directoryNotCreated (directory : String) (fault : DiskFault)
  | zeroInPath (path : String)
  | unopened (path : String)
  /-- The file was opened and its content is refused. -/
  | refused (path : String) (fault : CatalogFault)

namespace OpenFault

def message : OpenFault → String
  | .noDirectory fault => fault.message
  | .directoryNotCreated directory fault =>
    "cannot create directory " ++ Text.quoted directory ++ ": " ++ fault.message
  | .zeroInPath path =>
    "nul byte found in provided data at position: " ++
      Text.integerText (String.ofList (path.toList.takeWhile (· != '\x00'))).utf8ByteSize
  | .unopened path => "unable to open database file: " ++ path
  | .refused _ (.connection _ reason) => reason
  | .refused _ fault => fault.message

def path? : OpenFault → Option String
  | .noDirectory _ => none
  | .directoryNotCreated _ _ => none
  | .zeroInPath path => some path
  | .unopened path => some path
  | .refused path _ => some path

def fault (d : Deployment) (e : OpenFault) : CatalogFault := .connection d e.message

end OpenFault

namespace Handle

inductive FileContent where
  | database (db : Sql.Database)
  | other

/-- Open a file. A missing file is created if it may be. A path that begins with `file:` is
taken as the name of a file, although the engine takes it as a URI. -/
def fileContent (disk : CatalogDisk) (path : String) (create : Bool) :
    Except OpenFault FileContent :=
  if path.toList.contains '\x00' then .error (.zeroInPath path)
  else match disk.find path with
  | .ok (_, .database db) => .ok (.database db)
  | .ok (_, .text content) => .ok (if content.isEmpty then .database .empty else .other)
  | .ok (_, .directory) => .error (.unopened path)
  | .error _ =>
    if create ∧ (disk.locate path).isOk then .ok (.database .empty) else .error (.unopened path)

def prepareDirectory (disk : CatalogDisk) (path : String) (create : Bool) :
    Except OpenFault CatalogDisk :=
  match create, Path.parent? path with
  | true, some directory =>
    match disk.makeDirectories directory with
    | .ok disk => .ok disk
    | .error fault => .error (.directoryNotCreated directory fault)
  | _, _ => .ok disk

def settled (h : Handle) (disk : CatalogDisk) : CatalogDisk :=
  if isPrivatePath h.path ∨ !h.connection.isWritable then disk
  else disk.writeDatabase h.path h.connection.database

def refreshed (h : Handle) (disk : CatalogDisk) : Handle :=
  if isPrivatePath h.path then h
  else
    match disk.database? h.path with
    | some database => { h with connection := { h.connection with database, isWritable := true } }
    | none => { h with connection := { h.connection with isWritable := false } }

def openPath (d : Deployment) (path : String) (create : Bool) (now : Calendar.Instant)
    (disk : CatalogDisk) : Except OpenFault (Handle × Schema.Opening) × CatalogDisk :=
  let content :=
    if isPrivatePath path then .ok (.database .empty) else fileContent disk path create
  match content with
  | .error fault => (.error fault, disk)
  | .ok .other => (.error (.refused path (.query .notDatabase)), disk)
  | .ok (.database db) =>
    let (result, connection) := Schema.prepare d now (Sql.Connection.new db)
    let handle : Handle := ⟨d, path, connection, "", false⟩
    -- What was prepared goes to the file also when the handle is refused.
    (match result with
      | .ok opening => .ok (handle, opening)
      | .error fault => .error (.refused path fault), handle.settled disk)

def openFile (d : Deployment) (l : Locations) (dataHome : Option String)
    (now : Calendar.Instant) (disk : CatalogDisk) :
    Except OpenFault (Handle × Schema.Opening) × CatalogDisk :=
  match l.filePath dataHome d with
  | .error fault => (.error (.noDirectory fault), disk)
  | .ok path =>
    match prepareDirectory disk path l.createIfMissing with
    | .error fault => (.error fault, disk)
    | .ok disk => openPath d path l.createIfMissing now disk

def perform {α : Type} (action : Action α) (h : Handle) (disk : CatalogDisk) :
    Except CatalogFault α × Handle × CatalogDisk :=
  let (result, h) := action (h.refreshed disk)
  (result, h, h.settled disk)

/-- The size that is reported for a database file. Only that it is not zero matters. -/
def pageBytes : Nat := 4096

def fileBytes (h : Handle) (disk : CatalogDisk) : Except DiskFault Nat :=
  match disk.find h.path with
  | .error fault => .error fault
  | .ok (_, .text content) => .ok ((content.flatMap Text.Symbol.bytes).length)
  | .ok (_, .directory) => .ok pageBytes
  | .ok (_, .database db) => .ok (pageBytes * (1 + db.tables.length))

/-- The counts of rows and the size of the file; without a file the size is zero. -/
def statisticsOn (h : Handle) (disk : CatalogDisk) : Action Statistics :=
  let size :=
    if h.isInMemory then 0
    else
      match h.fileBytes disk with
      | .ok n => n
      | .error _ => 0
  statistics size

end Handle

end ObsCatalog
