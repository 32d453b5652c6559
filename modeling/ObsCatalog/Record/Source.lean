import ObsCatalog.Calendar.Interchange
import ObsCatalog.Json.Typed

/-! Sources of observations. -/

set_option autoImplicit false

namespace ObsCatalog

open Calendar

/-- A source; the authenticator is an opaque token by which it can be found. -/
structure Source where
  id : Int64
  name : String
  authenticator : String
  createTime : Instant
  deriving DecidableEq

namespace Source

def new (name authenticator : String) (createTime : Instant) : Source :=
  ⟨0, name, authenticator, createTime.wholeSecond⟩

def json (s : Source) : Json :=
  .object [
    ("id", .integer s.id.toInt),
    ("name", .text s.name),
    ("authenticator", .text s.authenticator),
    ("create_time", .text (Interchange.write s.createTime))]

structure Draft where
  id : Option Int64
  name : Option String
  authenticator : Option String
  createTime : Option Instant

open Json Reader in
def readTime : Reader Instant := do
  let s ← text "an RFC 3339 formatted date and time string"
  match Interchange.read s with
  | .ok t => pure t
  | .error e => mismatch (.unreadable e.message)

open Json Reader in
def readMember (name : String) (d : Draft) : Reader Draft :=
  match name with
  | "id" => do
    let id ← once name d.id int64
    pure { d with id }
  | "name" => do
    let value ← once name d.name (text "a string")
    pure { d with name := value }
  | "authenticator" => do
    let authenticator ← once name d.authenticator (text "a string")
    pure { d with authenticator }
  | "create_time" => do
    let createTime ← once name d.createTime readTime
    pure { d with createTime }
  | _ => do
    skipMember
    pure d

open Json Reader in
def readObject : Reader Source := do
  let d ← members readMember ⟨none, none, none, none⟩
  let id ← required "id" d.id
  let name ← required "name" d.name
  let authenticator ← required "authenticator" d.authenticator
  let createTime ← required "create_time" d.createTime
  pure ⟨id, name, authenticator, createTime⟩

def shape : String := "struct SourceRecord with 4 elements"

open Json Reader in
def readList : Reader Source := do
  let id ← requiredElement 0 shape int64
  let name ← requiredElement 1 shape (text "a string")
  let authenticator ← requiredElement 2 shape (text "a string")
  let createTime ← requiredElement 3 shape readTime
  pure ⟨id, name, authenticator, createTime⟩

def reader : Json.Reader Source :=
  Json.Reader.record "struct SourceRecord" readObject readList

def ofJson (s : String) : Except Json.Fault Source :=
  Json.Reader.document reader (Text.symbols s)

end Source

end ObsCatalog
