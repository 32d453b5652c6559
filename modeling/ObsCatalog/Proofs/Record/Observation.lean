import ObsCatalog.Catalog.Records
import ObsCatalog.Proofs.Obsid.FileName
import ObsCatalog.Proofs.Obsid.Second

/-! Observations that are made from the names of data files.

The date of such an observation can be found in two ways: from its Julian date, and from its id,
which is an obsid. Both lead to the same second, for an instant that a Julian date stands for
never lies in a leap second.
-/

set_option autoImplicit false

namespace ObsCatalog

open Calendar

namespace JulianDate

/-- No Julian date stands for a leap second. -/
theorem wholeSecond_of_toInstant {jd : Float} {t : Instant} (found : toInstant jd = .ok t) :
    t.wholeSecond.nano = 0 := by
  refine if_neg ?_
  unfold toInstant at found
  split at found
  · split at found
    · next made =>
      cases found
      have nano := (Instant.parts_of_ofParts? made).2
      unfold Instant.isLeap nanosPerSecond
      omega
    · cases found
  · cases found

theorem of_toInstant_error {jd : Float} {fault : ObsidFault}
    (failed : toInstant jd = .error fault) : fault = outOfRange jd := by
  unfold toInstant at failed
  split at failed
  · split at failed
    · cases failed
    · cases failed
      rfl
  · cases failed
    rfl

end JulianDate

namespace Obsid

/-- An obsid stands for the start of the second that it was made from. -/
theorem of_ofInstant {t : Instant} {obsid : Int64} (named : ofInstant t = .ok obsid) :
    0 < obsid ∧ unixSecond obsid = t.second := by
  by_cases late : gpsEpoch < t.second
  · rw [ofInstant_of_lt late] at named
    cases named
    exact ⟨ofInt_gpsSecond_pos late, unixSecond_ofInt_gpsSecond t⟩
  · rw [ofInstant_of_le (Int.not_lt.1 late)] at named
    cases named

theorem of_ofInstant_error {t : Instant} {fault : ObsidFault}
    (failed : ofInstant t = .error fault) : ∃ subject, fault = .outOfRange subject := by
  unfold ofInstant at failed
  split at failed
  · cases failed
    exact ⟨_, rfl⟩
  · cases failed

theorem of_ofJulianDate {jd : Float} {obsid : Int64} (named : ofJulianDate jd = .ok obsid) :
    0 < obsid ∧ ∃ t, JulianDate.toInstant jd = .ok t ∧ toInstant obsid = .ok t.wholeSecond := by
  unfold ofJulianDate at named
  cases found : JulianDate.toInstant jd with
  | error fault =>
    rw [found] at named
    cases named
  | ok t =>
    rw [found] at named
    obtain ⟨positive, second⟩ := of_ofInstant named
    exact ⟨positive, t, rfl, toInstant_eq_ok_iff.2
      ⟨positive, second.symm, JulianDate.wholeSecond_of_toInstant found⟩⟩

theorem of_ofJulianDate_error {jd : Float} {fault : ObsidFault}
    (failed : ofJulianDate jd = .error fault) : ∃ subject, fault = .outOfRange subject := by
  unfold ofJulianDate at failed
  cases found : JulianDate.toInstant jd with
  | error first =>
    rw [found] at failed
    cases failed
    exact ⟨_, JulianDate.of_toInstant_error found⟩
  | ok t =>
    rw [found] at failed
    exact of_ofInstant_error failed

end Obsid

namespace Handle

theorem insertObservation_ne_missingId {o : Observation} (positive : 0 < o.id) (draws : Sql.Draws)
    (h : Handle) : (insertObservation o .assigned draws h).1 ≠ .error .missingId := by
  simp only [insertObservation, execute, if_neg (Int64.not_le.2 positive)]
  cases h.isPoisoned with
  | true => exact nofun
  | false =>
    cases Sql.Connection.insert Table.observation.name ("id" :: observationColumns)
        (.integer o.id :: observationCells o) draws h.connection with
    | error fault => exact nofun
    | ok pair => exact nofun

end Handle

namespace Observation

variable {sourceId : Int64} {name : String} {lengthDays : Float} {o : Observation}

/-- The parts of a name are read one after the other: its date, its polarization, its obsid. -/
theorem ofFileName_eq (sourceId : Int64) (name : String) (lengthDays : Float) :
    ofFileName sourceId name lengthDays =
      match FileName.startDate name with
      | .error fault => .error fault
      | .ok jd =>
        match FileName.polarization name with
        | .error fault => .error fault
        | .ok p =>
          match Obsid.ofJulianDate jd with
          | .error fault => .error fault
          | .ok id => .ok ⟨id, sourceId, jd, p, lengthDays⟩ := by
  unfold ofFileName
  cases FileName.startDate name with
  | error fault => rfl
  | ok jd =>
    cases FileName.polarization name with
    | error fault => rfl
    | ok p =>
      -- The obsid of the date stands under a binder here.
      dsimp only [bind, Except.bind]
      cases Obsid.ofJulianDate jd <;> rfl

theorem of_ofFileName (made : ofFileName sourceId name lengthDays = .ok o) :
    FileName.startDate name = .ok o.julianDate ∧ Obsid.ofJulianDate o.julianDate = .ok o.id := by
  rw [ofFileName_eq] at made
  split at made
  · cases made
  · next date =>
    split at made
    · cases made
    · split at made
      · cases made
      · next named =>
        cases made
        exact ⟨date, named⟩

theorem ofFileName_eq_error_iff {fault : ObsidFault} :
    ofFileName sourceId name lengthDays = .error fault ↔
      FileName.startDate name = .error fault ∨
        (∃ jd, FileName.startDate name = .ok jd ∧ FileName.polarization name = .error fault) ∨
        ∃ jd p, FileName.startDate name = .ok jd ∧ FileName.polarization name = .ok p ∧
          Obsid.ofJulianDate jd = .error fault := by
  rw [ofFileName_eq]
  cases FileName.startDate name with
  | error first => simp
  | ok jd =>
    cases FileName.polarization name with
    | error second => simp
    | ok p =>
      cases named : Obsid.ofJulianDate jd with
      | error third => simp [named]
      | ok id => simp [named]

/-- The start date of a name is its first number, if all digits of it are ASCII ones; its
polarization is the first pair of polarization letters between points; nothing else can be wrong
with a name. Where no observation can be made of it, the date is to blame before the
polarization, and the polarization before an obsid that is out of range. -/
theorem name_grammar (name : String) :
    (∀ jd, FileName.startDate name = .ok jd ↔
      ∃ n : FileName.Numeral, n.IsFirst name.toList ∧ n.isAscii ∧
        Real.ofText? (String.ofList n.text) = some jd ∧ jd = n.value) ∧
    (∀ fault, FileName.startDate name = .error fault ↔
      ((∀ n : FileName.Numeral, ¬ n.In name.toList) ∧
          fault = .unrecognizedName name "no Julian date in the name") ∨
        (∃ n : FileName.Numeral, n.IsFirst name.toList ∧ n.isAscii = false) ∧
          fault = .unrecognizedName name "invalid float literal") ∧
    (∀ p, FileName.polarization name = .ok p ↔
      ∃ i a b, FileName.PolarizationAt name.toList i a b ∧
        (∀ j < i, ∀ a b, ¬ FileName.PolarizationAt name.toList j a b) ∧
        p = String.ofList [a, b]) ∧
    (∀ fault, FileName.polarization name = .error fault ↔
      (∀ i a b, ¬ FileName.PolarizationAt name.toList i a b) ∧
        fault = .unrecognizedName name "no polarization in the name") ∧
    ∀ sourceId lengthDays fault, ofFileName sourceId name lengthDays = .error fault ↔
      FileName.startDate name = .error fault ∨
        (∃ jd, FileName.startDate name = .ok jd ∧ FileName.polarization name = .error fault) ∨
        ∃ jd p, FileName.startDate name = .ok jd ∧ FileName.polarization name = .ok p ∧
          Obsid.ofJulianDate jd = .error fault ∧ ∃ subject, fault = .outOfRange subject := by
  refine ⟨fun jd => ?_, fun fault => FileName.startDate_eq_error_iff,
    fun p => FileName.polarization_eq_ok_iff, fun fault => FileName.polarization_eq_error_iff,
    fun sourceId lengthDays fault => ?_⟩
  · rw [FileName.startDate_eq_ok_iff]
    constructor
    · rintro ⟨n, first, ascii, rfl⟩
      exact ⟨n, first, ascii, by rw [first.1.ofText?, if_pos ascii], rfl⟩
    · rintro ⟨n, first, ascii, -, value⟩
      exact ⟨n, first, ascii, value⟩
  · rw [ofFileName_eq_error_iff]
    refine or_congr_right (or_congr_right ⟨?_, ?_⟩)
    · rintro ⟨jd, p, date, pair, failed⟩
      exact ⟨jd, p, date, pair, failed, Obsid.of_ofJulianDate_error failed⟩
    · rintro ⟨jd, p, date, pair, failed, -⟩
      exact ⟨jd, p, date, pair, failed⟩

/-- The id of an observation that is made from a name is the obsid of the name. Its instant and
its date are those of the Julian date, to the second, and it can be inserted under its id. -/
theorem ofFileName_consistent (made : ofFileName sourceId name lengthDays = .ok o) :
    0 < o.id ∧ FileName.obsid name = .ok o.id ∧
    (∃ t, o.startTime = .ok t ∧ Obsid.toInstant o.id = .ok t.wholeSecond) ∧
    (∃ date, o.obsidDate = .ok date ∧ JulianDate.dateText o.julianDate = .ok date) ∧
    ∀ (draws : Sql.Draws) (h : Handle),
      (Handle.insertObservation o .assigned draws h).1 ≠ .error .missingId := by
  obtain ⟨date, named⟩ := of_ofFileName made
  obtain ⟨positive, t, start, stands⟩ := Obsid.of_ofJulianDate named
  refine ⟨positive, ?_, ⟨t, start, stands⟩, ⟨t.dateText, ?_, ?_⟩,
    Handle.insertObservation_ne_missingId positive⟩
  · simp only [FileName.obsid, date]
    exact named
  · simp only [obsidDate, Obsid.dateText, stands]
    rfl
  · simp only [JulianDate.dateText, start]
    rfl

/-- Less than a second before the leap second at the end of 2016. -/
theorem ofFileName_consistent_beforeLeap :
    ∃ o, ofFileName 7 "zen.2457754.49999.xx.HH.uv" 0.007 = .ok o ∧ o.id = 1167264016 ∧
      ∃ t, o.startTime = .ok t ∧ t.nano ≠ 0 ∧ Obsid.toInstant o.id = .ok t.wholeSecond := by
  let shown := fun o : Observation => (o.id, o.startTime.toOption.map (·.nano != 0))
  have computed : (ofFileName 7 "zen.2457754.49999.xx.HH.uv" 0.007).toOption.map shown =
      some (1167264016, some true) := by
    decide +kernel
  cases made : ofFileName 7 "zen.2457754.49999.xx.HH.uv" 0.007 with
  | error fault =>
    rw [made] at computed
    cases computed
  | ok o =>
    obtain ⟨-, -, ⟨t, start, stands⟩, -⟩ := ofFileName_consistent made
    simp [made, Except.toOption, shown, start] at computed
    exact ⟨o, rfl, computed.1, t, start, computed.2, stands⟩

end Observation

end ObsCatalog
