import ObsCatalog.Json.Value

/-! Values of columns. -/

set_option autoImplicit false

namespace ObsCatalog

inductive Value where
  | null
  | integer (n : Int64)
  | real (x : Float)
  | text (s : String)
  | blob (bytes : List UInt8)

namespace Value

def typeName : Value → String
  | .null => "null"
  | .integer _ => "integer"
  | .real _ => "real"
  | .text _ => "text"
  | .blob _ => "blob"

/-- The value in JSON; bytes become an array of numbers. -/
def json : Value → Json
  | .null => .null
  | .integer n => .integer n.toInt
  | .real x => .real x
  | .text s => .text s
  | .blob bytes => .array (bytes.map fun b => .integer (b.toNat : Int))

end Value

end ObsCatalog
