import ObsCatalog.Calendar.LeapSecond
import ObsCatalog.Obsid.JulianDate

/-! Observation ids.

An obsid is the start of an observation in whole GPS seconds after 1980-01-06. It
is always positive. A leap second and the second that follows it have obsids of
their own, and both stand for the later second.
-/

set_option autoImplicit false

namespace ObsCatalog.Obsid

open Calendar

def gpsSecond (second : Int) : Int := second - gpsEpoch + gpsLead second

def ofInstant (t : Instant) : Except ObsidFault Int64 :=
  if gpsSecond t.second ≤ 0 then
    .error (.outOfRange (t.display ++ " is not after the GPS epoch"))
  else .ok (Int64.ofInt (gpsSecond t.second))

def ofJulianDate (jd : Float) : Except ObsidFault Int64 :=
  JulianDate.toInstant jd >>= ofInstant

def outOfRange (obsid : Int64) : ObsidFault :=
  .outOfRange ("obsid " ++ Text.integerText obsid.toInt)

def uncorrected (obsid : Int64) : Int := obsid.toInt + gpsEpoch

/-- The uncorrected second without the leap seconds before it. Just after a leap second
one too many is taken away. -/
def firstGuess (obsid : Int64) : Int := uncorrected obsid - gpsLead (uncorrected obsid)

/-- The second that an obsid stands for; a second look-up at the first guess settles it. -/
def unixSecond (obsid : Int64) : Int := uncorrected obsid - gpsLead (firstGuess obsid)

/-- The instant that an obsid stands for. Its uncorrected second has to be one of 64 bits. -/
def toInstant (obsid : Int64) : Except ObsidFault Instant :=
  if obsid ≤ 0 ∨ Int64.maxValue.toInt < uncorrected obsid then .error (outOfRange obsid)
  else
    match Instant.ofSecond? (unixSecond obsid) with
    | some t => .ok t
    | none => .error (outOfRange obsid)

def dateText (obsid : Int64) : Except ObsidFault String := Instant.dateText <$> toInstant obsid

end ObsCatalog.Obsid
