import ObsCatalog.Catalog.Deployment

/-! Statistics of a database. -/

set_option autoImplicit false

namespace ObsCatalog

structure Statistics where
  deployment : Deployment
  sources : Int
  observations : Int
  fileBytes : Nat
  deriving DecidableEq, Repr

namespace Statistics

def json (s : Statistics) : Json :=
  .object [
    ("database", s.deployment.json),
    ("source_count", .integer s.sources),
    ("observation_count", .integer s.observations),
    ("file_size_bytes", .integer s.fileBytes)]

/-- The statistics in one line; the size is given in whole kilobytes. -/
def summary (s : Statistics) : String :=
  "Database: " ++ s.deployment.name ++ ", Sources: " ++ Text.integerText s.sources ++
    ", Observations: " ++ Text.integerText s.observations ++ ", Size: " ++
    Text.integerText ((s.fileBytes / 1024 : Nat) : Int) ++ " KB"

end Statistics

end ObsCatalog
