import ObsCatalog.Calendar.Stamp
import ObsCatalog.Obsid.Fault

/-! Julian dates.

A Julian date is a real count of days; 2440587.5 is 1970-01-01 00:00:00 UTC. It
stands for an instant to the microsecond.
-/

set_option autoImplicit false

namespace ObsCatalog.JulianDate

open Calendar

def unixEpoch : Float := 2440587.5

def micros (jd : Float) : Float := (jd - unixEpoch) * 86400.0 * 1e6

def outOfRange (jd : Float) : ObsidFault := .outOfRange ("JD " ++ Real.messageText jd)

def toInstant (jd : Float) : Except ObsidFault Instant :=
  if (micros jd).isFinite then
    match Instant.ofMicros? (Real.round (micros jd)) with
    | some t => .ok t
    | none => .error (outOfRange jd)
  else .error (outOfRange jd)

def ofInstant (t : Instant) : Float := Real.ofInt t.micros / 1e6 / 86400.0 + unixEpoch

def dateText (jd : Float) : Except ObsidFault String := Instant.dateText <$> toInstant jd

/-- Date and time of day to the second, the fraction dropped. -/
def stampText (jd : Float) : Except ObsidFault String := Stamp.write <$> toInstant jd

end ObsCatalog.JulianDate
