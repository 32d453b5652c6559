import ObsCatalog.Calendar.Stamp
import ObsCatalog.Catalog.Fault
import ObsCatalog.Catalog.Row
import ObsCatalog.Sql.Connection

/-! The tables of a catalog.

A database is stamped with its deployment and with the version of its tables when the
tables are made. A stamped database is opened for no other deployment and no other
version. The deployments differ in the sequence of observations alone.
-/

set_option autoImplicit false

namespace ObsCatalog.Schema

open Sql (Cell Column Connection Database)

def version : Int := 1

def stampName : String := "schema_version"

def stampTable : Sql.Table where
  name := stampName
  key := "id"
  columns := [
    ⟨"version", .integer, true, none, .null⟩,
    ⟨"deployment", .text, true, none, .null⟩,
    ⟨"updated_at", .text, true, none, .null⟩]
  sequence := none
  onlyId := some 1
  references := []
  rows := []

/-- Sources never get the id of an earlier source. -/
def sourceTable : Sql.Table where
  name := Table.source.name
  key := "id"
  columns := [
    ⟨"name", .text, true, none, .null⟩,
    ⟨"authenticator", .text, true, some "idx_source_authenticator", .null⟩,
    ⟨"create_time", .text, true, none, .null⟩]
  sequence := some 0
  onlyId := none
  references := []
  rows := []

def observationSequence : IdPolicy → Option Int64
  | .assigned => none
  | .generated => some 0

def observationTable (policy : IdPolicy) : Sql.Table where
  name := Table.observation.name
  key := "id"
  columns := [
    ⟨"source_id", .integer, true, some "idx_observation_source", .null⟩,
    ⟨"julian_date", .real, true, none, .null⟩,
    ⟨"polarization", .text, true, none, .null⟩,
    ⟨"length_days", .real, true, none, .null⟩]
  sequence := observationSequence policy
  onlyId := none
  references := [⟨"source_id", Table.source.name⟩]
  rows := []

def createTables (d : Deployment) (db : Database) : Database :=
  ((db.createTable stampTable).createTable sourceTable).createTable
    (observationTable d.idPolicy)

structure Stamp where
  version : Int
  deployment : String
  deriving DecidableEq, Repr

def stampLead : String := "SELECT version, deployment FROM schema_version WHERE "

def stampStatement : String := stampLead ++ "id = 1"

def versionOf (c : Cell) : Except Sql.Fault Int :=
  match c with
  | .integer n =>
    if Int32.minValue.toInt ≤ n.toInt ∧ n.toInt ≤ Int32.maxValue.toInt then .ok n.toInt
    else .error (.columnRange n.toInt 0)
  | c => .error (.columnType c.kindName 0 "version")

def brokenAt : Nat → List Text.Symbol → String
  | _, [] => ""
  | offset, .char c :: rest => brokenAt (offset + c.utf8Size) rest
  | offset, .stray bytes :: rest =>
    let incomplete :=
      rest.isEmpty && (bytes.head?.bind Text.continuation?).elim false fun c =>
        bytes.length ≤ c.count
    if incomplete then
      "incomplete utf-8 byte sequence from index " ++ Text.integerText offset
    else
      "invalid utf-8 sequence of " ++ Text.integerText bytes.length ++ " bytes from index " ++
        Text.integerText offset

def deploymentOf (c : Cell) : Except Sql.Fault String :=
  match c with
  | .text s => .ok s
  | .mangled bytes => .error (.columnText 1 (brokenAt 0 (Text.decode bytes)))
  | c => .error (.columnType c.kindName 1 "deployment")

def checkStampColumns (t : Sql.Table) : Except Sql.Fault Unit :=
  let missing (column : String) (offset : Nat) : Except Sql.Fault Unit :=
    match Sql.Mention.columnOf t column with
    | some _ => .ok ()
    | none => .error (.located (.noColumn column) stampStatement offset)
  do
    missing "version" "SELECT ".utf8ByteSize
    missing "deployment" "SELECT version, ".utf8ByteSize
    missing "id" stampLead.utf8ByteSize

def stamp (db : Database) : Except Sql.Fault (Option Stamp) :=
  match db.table? stampName with
  | none => .ok none
  | some t => do
    checkStampColumns t
    match t.row? 1 with
    | none => pure none
    | some r =>
      let version ← versionOf (Database.cellOf t r "version")
      let deployment ← deploymentOf (Database.cellOf t r "deployment")
      pure (some ⟨version, deployment⟩)

def writeStamp (d : Deployment) (now : Calendar.Instant) : Connection.Statement Int64 :=
  Connection.replace stampName 1 ["id", "version", "deployment", "updated_at"]
    [.integer 1, .integer (Int64.ofInt version), .text d.name,
      .text (Calendar.Stamp.write now.wholeSecond)]

inductive Opening where
  | created
  | current
  deriving DecidableEq, Repr

def refusal (d : Deployment) (s : Stamp) : Option CatalogFault :=
  if s.deployment ≠ d.name then
    some (.connection d ("file holds the " ++ s.deployment ++ " schema"))
  else if s.version ≠ version then
    some (.connection d
      ("schema version " ++ Text.integerText s.version ++ " is not supported (expected " ++
        Text.integerText version ++ ")"))
  else none

def prepare (d : Deployment) (now : Calendar.Instant) (c : Connection) :
    Except CatalogFault Opening × Connection :=
  match stamp c.database with
  | .error fault => (.error (.query fault), c)
  | .ok none =>
    -- The tables stay even if the stamp cannot be written.
    let c := { c with database := createTables d c.database }
    match writeStamp d now c with
    | .error fault => (.error (.query fault), c)
    | .ok (_, c) => (.ok .created, c)
  | .ok (some s) =>
    match refusal d s with
    | some fault => (.error fault, c)
    | none => (.ok .current, c)

end ObsCatalog.Schema
