import ObsCatalog.Proofs.Json.Members
import ObsCatalog.Proofs.Json.Real
import ObsCatalog.Record.Observation

/-! Observations read back from JSON.

All members of the object that an observation is written as are read, if its reals are finite. The
id, the source and the polarization are those that were written; the reals are near to them.
-/

set_option autoImplicit false

namespace ObsCatalog.Observation

open Json Reader

theorem readMember_fills (o : Observation) {date length : Float}
    (julian : Accepts float (.real o.julianDate) date)
    (days : Accepts float (.real o.lengthDays) length) :
    Fills readMember ⟨none, none, none, none, none⟩
      [("id", .integer o.id.toInt), ("source_id", .integer o.sourceId.toInt),
        ("julian_date", .real o.julianDate), ("polarization", .text o.polarization),
        ("length_days", .real o.lengthDays)]
      ⟨some o.id, some o.sourceId, some date, some o.polarization, some length⟩ :=
  .more ((once_accepts (int64_accepts o.id) "id").bind fun _ => rfl) <|
  .more ((once_accepts (int64_accepts o.sourceId) "source_id").bind fun _ => rfl) <|
  .more ((once_accepts julian "julian_date").bind fun _ => rfl) <|
  .more ((once_accepts (text_accepts "a string" o.polarization) "polarization").bind
    fun _ => rfl) <|
  .more ((once_accepts days "length_days").bind fun _ => rfl) <|
  .none _

theorem reader_accepts (o : Observation) {date length : Float}
    (julian : Accepts float (.real o.julianDate) date)
    (days : Accepts float (.real o.lengthDays) length) :
    Accepts reader o.json ⟨o.id, o.sourceId, date, o.polarization, length⟩ := by
  refine record_accepts fun cs spelled rest p => ?_
  rw [readObject, bind_ok (members_fills (o.readMember_fills julian days) spelled rest p)]
  rfl

def IsObject (o : Observation) (j : Json) : Prop :=
  j = .object [("id", .integer o.id.toInt), ("source_id", .integer o.sourceId.toInt),
    ("julian_date", .real o.julianDate), ("polarization", .text o.polarization),
    ("length_days", .real o.lengthDays)]

theorem isObject_json (o : Observation) : o.IsObject o.json := rfl

/-- The text is read as an observation with the same id, source and polarization. -/
def ReadsBack (o : Observation) (text : String) : Prop :=
  ∃ read, ofJson text = .ok read ∧ read.id = o.id ∧ read.sourceId = o.sourceId ∧
    read.polarization = o.polarization

theorem readsBack_isDocument {o : Observation} (julian : o.julianDate.isFinite)
    (days : o.lengthDays.isFinite) {text : String} (holds : IsDocument o.json text) :
    o.ReadsBack text := by
  obtain ⟨date, readDate⟩ := float_accepts julian
  obtain ⟨length, readLength⟩ := float_accepts days
  exact ⟨_, document_accepts (o.reader_accepts readDate readLength) holds, rfl, rfl, rfl⟩

end ObsCatalog.Observation
