import ObsCatalog.Obsid.Basic
import ObsCatalog.Real.Literal
import ObsCatalog.Text.DecimalDigit

/-! Names of data files.

A name such as `zen.2457754.50000.xx.HH.uv` holds the start date as its first
number with a fraction, and the polarization as two letters between points. Both
are found by trying each position of the name from the left.
-/

set_option autoImplicit false

namespace ObsCatalog.FileName

open Text

/-- The first answer of `look` at the suffixes of a list, the longest first. -/
def firstMatch {α : Type} (look : List Char → Option α) : List Char → Option α
  | [] => look []
  | c :: rest =>
    match look (c :: rest) with
    | some found => some found
    | none => firstMatch look rest

/-- A run of digits, a point and another run, at the start of the text. -/
def numberHere (cs : List Char) : Option (List Char) :=
  -- A shorter first run would be followed by a digit, so only the whole run is tried.
  match cs.takeWhile isDecimalDigit, cs.dropWhile isDecimalDigit with
  | d :: run, '.' :: after =>
    match after.takeWhile isDecimalDigit with
    | [] => none
    | fraction => some (d :: run ++ '.' :: fraction)
  | _, _ => none

def isPolarizationLetter (c : Char) : Bool := c = 'x' || c = 'y'

def polarizationHere : List Char → Option (List Char)
  | '.' :: a :: b :: '.' :: _ =>
    if isPolarizationLetter a && isPolarizationLetter b then some [a, b] else none
  | _ => none

def unrecognized (name reason : String) : ObsidFault := .unrecognizedName name reason

/-- The start date that a name holds. Only ASCII digits are numbers; digits of other
scripts are found but cannot be read. -/
def startDate (name : String) : Except ObsidFault Float :=
  match firstMatch numberHere name.toList with
  | none => .error (unrecognized name "no Julian date in the name")
  | some found =>
    match Real.ofText? (String.ofList found) with
    | some jd => .ok jd
    | none => .error (unrecognized name "invalid float literal")

def polarization (name : String) : Except ObsidFault String :=
  match firstMatch polarizationHere name.toList with
  | some found => .ok (String.ofList found)
  | none => .error (unrecognized name "no polarization in the name")

def obsid (name : String) : Except ObsidFault Int64 :=
  startDate name >>= Obsid.ofJulianDate

end ObsCatalog.FileName
