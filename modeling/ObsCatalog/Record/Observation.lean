import ObsCatalog.Json.Typed
import ObsCatalog.Obsid.FileName

/-! Observations. -/

set_option autoImplicit false

namespace ObsCatalog

/-- An observation of a source; its start is a Julian date and its length is in
days. -/
structure Observation where
  id : Int64
  sourceId : Int64
  julianDate : Float
  polarization : String
  lengthDays : Float

namespace Observation

def new (sourceId : Int64) (julianDate : Float) (polarization : String) (lengthDays : Float) :
    Observation :=
  ⟨0, sourceId, julianDate, polarization, lengthDays⟩

/-- The observation that the name of a data file describes; its id is the obsid of its
start. -/
def ofFileName (sourceId : Int64) (name : String) (lengthDays : Float) :
    Except ObsidFault Observation := do
  let julianDate ← FileName.startDate name
  let polarization ← FileName.polarization name
  let id ← Obsid.ofJulianDate julianDate
  pure ⟨id, sourceId, julianDate, polarization, lengthDays⟩

def startTime (o : Observation) : Except ObsidFault Calendar.Instant :=
  JulianDate.toInstant o.julianDate

def obsidDate (o : Observation) : Except ObsidFault String := Obsid.dateText o.id

def json (o : Observation) : Json :=
  .object [
    ("id", .integer o.id.toInt),
    ("source_id", .integer o.sourceId.toInt),
    ("julian_date", .real o.julianDate),
    ("polarization", .text o.polarization),
    ("length_days", .real o.lengthDays)]

structure Draft where
  id : Option Int64
  sourceId : Option Int64
  julianDate : Option Float
  polarization : Option String
  lengthDays : Option Float

open Json Reader in
def readMember (name : String) (d : Draft) : Reader Draft :=
  match name with
  | "id" => do
    let id ← once name d.id int64
    pure { d with id }
  | "source_id" => do
    let sourceId ← once name d.sourceId int64
    pure { d with sourceId }
  | "julian_date" => do
    let julianDate ← once name d.julianDate float
    pure { d with julianDate }
  | "polarization" => do
    let polarization ← once name d.polarization (text "a string")
    pure { d with polarization }
  | "length_days" => do
    let lengthDays ← once name d.lengthDays float
    pure { d with lengthDays }
  | _ => do
    skipMember
    pure d

open Json Reader in
def readObject : Reader Observation := do
  let d ← members readMember ⟨none, none, none, none, none⟩
  let id ← required "id" d.id
  let sourceId ← required "source_id" d.sourceId
  let julianDate ← required "julian_date" d.julianDate
  let polarization ← required "polarization" d.polarization
  let lengthDays ← required "length_days" d.lengthDays
  pure ⟨id, sourceId, julianDate, polarization, lengthDays⟩

def shape : String := "struct ObservationRecord with 5 elements"

open Json Reader in
def readList : Reader Observation := do
  let id ← requiredElement 0 shape int64
  let sourceId ← requiredElement 1 shape int64
  let julianDate ← requiredElement 2 shape float
  let polarization ← requiredElement 3 shape (text "a string")
  let lengthDays ← requiredElement 4 shape float
  pure ⟨id, sourceId, julianDate, polarization, lengthDays⟩

def reader : Json.Reader Observation :=
  Json.Reader.record "struct ObservationRecord" readObject readList

def ofJson (s : String) : Except Json.Fault Observation :=
  Json.Reader.document reader (Text.symbols s)

end Observation

end ObsCatalog
