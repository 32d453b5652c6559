import ObsCatalog.Real.Decimal

/-! Failures of observation-id conversions. -/

set_option autoImplicit false

namespace ObsCatalog

inductive ObsidFault where
  | unrecognizedName (name reason : String)
  | outOfRange (subject : String)
  | badPattern (detail : String)
  deriving DecidableEq, Repr

namespace ObsidFault

def message : ObsidFault → String
  | .unrecognizedName name reason =>
    "Cannot infer an observation from file name '" ++ name ++ "': " ++ reason
  | .outOfRange subject => "Time out of range for an obsid: " ++ subject
  | .badPattern detail => "Invalid file name pattern: " ++ detail

end ObsidFault

namespace Real

/-- Reals in messages never have an exponent, and whole ones have no point. -/
def messageFormat : RealFormat where
  isPositional _ := true
  pointZero := false
  mantissaPointZero := false
  exponentDigits := 1

def messageText (x : Float) : String :=
  if x.isNaN then "NaN"
  else
    let sign := if isNegative x then "-" else ""
    if x.isInf then sign ++ "inf"
    else if magnitude x = 0 then sign ++ "0"
    else sign ++ String.ofList (messageFormat.write (shortest .up x))

end Real

end ObsCatalog
