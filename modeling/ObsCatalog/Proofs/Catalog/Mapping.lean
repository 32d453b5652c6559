import ObsCatalog.Proofs.Catalog.Row
import ObsCatalog.Proofs.Sql.Database

/-! Records and rows.

A record holds the values of its fields in a row. It does not depend on the order of columns that
have different names, nor on columns that no field is named for.
-/

set_option autoImplicit false

namespace ObsCatalog

namespace Row

variable {r other : Row} {column : String} {fields : List Field} {f : Field} {names : List String}
  {listed more : List (String × Value)}

def entries (r : Row) : List (String × Value) := r.columns.zip r.values

theorem get?_eq (r : Row) (column : String) :
    r.get? column = (r.entries.find? (·.1 = column)).map (·.2) := rfl

/-- The other row has the same values below the same columns, all of different names, in any
order. -/
structure Rearranges (r other : Row) : Prop where
  table : other.table = r.table
  distinct : r.columns.Nodup
  entries : other.entries.Perm r.entries

theorem find?_eq_some_iff (distinct : (listed.map (·.1)).Nodup) {e : String × Value} :
    listed.find? (·.1 = column) = some e ↔ e ∈ listed ∧ e.1 = column := by
  constructor
  · intro found
    exact ⟨List.mem_of_find?_eq_some found, by simpa using List.find?_some found⟩
  · rintro ⟨member, named⟩
    cases found : listed.find? (·.1 = column) with
    | none => exact absurd named (by simpa using List.find?_eq_none.1 found e member)
    | some other =>
      have known := List.mem_of_find?_eq_some found
      have same : other.1 = column := by simpa using List.find?_some found
      rw [List.inj_on_of_nodup_map distinct known member (same.trans named.symm)]

theorem find?_perm (distinct : (listed.map (·.1)).Nodup) (perm : more.Perm listed) :
    more.find? (·.1 = column) = listed.find? (·.1 = column) := by
  -- Of distinct names, what is found is the only entry of the name, wherever it stands.
  have others : (more.map (·.1)).Nodup := (perm.map (·.1)).nodup_iff.2 distinct
  apply Option.ext
  intro e
  rw [find?_eq_some_iff distinct, find?_eq_some_iff others, perm.mem_iff]

theorem names_sublist (columns : List String) (values : List Value) :
    ((columns.zip values).map (·.1)).Sublist columns := by
  induction columns generalizing values with
  | nil => exact .slnil
  | cons name columns ih =>
    cases values with
    | nil => exact List.nil_sublist _
    | cons v values => exact (ih values).cons_cons name

theorem Rearranges.get? (rearranges : r.Rearranges other) (column : String) :
    other.get? column = r.get? column := by
  have names : (r.entries.map (·.1)).Nodup :=
    rearranges.distinct.sublist (names_sublist r.columns r.values)
  rw [get?_eq, get?_eq, find?_perm names rearranges.entries]

inductive Gains (fields : List Field) : List (String × Value) → List (String × Value) → Prop where
  | nil : Gains fields [] []
  | keep (e : String × Value) {listed more : List (String × Value)} :
      Gains fields listed more → Gains fields (e :: listed) (e :: more)
  | add {e : String × Value} {listed more : List (String × Value)} :
      (∀ f ∈ fields, f.column ≠ e.1) → Gains fields listed more → Gains fields listed (e :: more)

theorem Gains.find? (gains : Gains fields listed more) (field : f ∈ fields) :
    more.find? (·.1 = f.column) = listed.find? (·.1 = f.column) := by
  induction gains with
  | nil => rfl
  | keep e _ ih => rw [List.find?_cons, List.find?_cons, ih]
  | add others _ ih =>
    rw [List.find?_cons_of_neg (by simpa using (others f field).symm), ih]

theorem Gains.append (listed : List (String × Value))
    (others : ∀ e ∈ more, ∀ f ∈ fields, f.column ≠ e.1) :
    Gains fields listed (listed ++ more) := by
  induction listed with
  | nil =>
    induction more with
    | nil => exact .nil
    | cons e more ih =>
      obtain ⟨first, others⟩ := List.forall_mem_cons.1 others
      exact .add first (ih others)
  | cons e listed ih => exact .keep e ih

end Row

/-- How records are read from rows: each field from its value, with a report of the first field
that a row lacks, and without regard to anything else in the row. -/
structure Maps {α : Type} (ofRow : Row → Except CatalogFault α) (fields : List Field)
    (Holds : Row → α → Prop) : Prop where
  ok_iff (r : Row) (a : α) : ofRow r = .ok a ↔ Holds r a
  reads (r : Row) : r.Reads fields (ofRow r)
  rearranged {r other : Row} : r.Rearranges other → ofRow other = ofRow r
  gained {r other : Row} : other.table = r.table → Row.Gains fields r.entries other.entries →
    ofRow other = ofRow r

theorem Maps.of_get? {α : Type} {ofRow : Row → Except CatalogFault α} {fields : List Field}
    {Holds : Row → α → Prop} (ok_iff : ∀ r a, ofRow r = .ok a ↔ Holds r a)
    (reads : ∀ r, Row.Reads r fields (ofRow r))
    (alike : ∀ r other : Row, other.table = r.table →
      (∀ f ∈ fields, other.get? f.column = r.get? f.column) → ofRow other = ofRow r) :
    Maps ofRow fields Holds where
  ok_iff := ok_iff
  reads := reads
  rearranged rearranges := alike _ _ rearranges.table fun f _ => rearranges.get? f.column
  gained table gains := by
    apply alike _ _ table
    intro f field
    rw [Row.get?_eq, Row.get?_eq, gains.find? field]

namespace Source

def fields : List Field :=
  [⟨"id", .integer⟩, ⟨"name", .text⟩, ⟨"authenticator", .text⟩, ⟨"create_time", .time⟩]

/-- The row has the values of a source. -/
structure IsIn (r : Row) (s : Source) : Prop where
  id : r.Shows "id" (.integer s.id)
  name : r.Shows "name" (.text s.name)
  authenticator : r.Shows "authenticator" (.text s.authenticator)
  createTime : r.ShowsTime "create_time" s.createTime

theorem ofRow_eq_ok_iff {r : Row} {s : Source} : ofRow r = .ok s ↔ IsIn r s := by
  constructor
  · intro done
    obtain ⟨id, readId, done⟩ := Sql.ok_of_bind done
    obtain ⟨name, readName, done⟩ := Sql.ok_of_bind done
    obtain ⟨authenticator, readAuthenticator, done⟩ := Sql.ok_of_bind done
    obtain ⟨createTime, readTime, done⟩ := Sql.ok_of_bind done
    cases done
    exact ⟨Row.integer_eq_ok_iff.1 readId, Row.text_eq_ok_iff.1 readName,
      Row.text_eq_ok_iff.1 readAuthenticator, Row.time_eq_ok_iff.1 readTime⟩
  · intro holds
    simp only [ofRow, Row.integer_eq_ok_iff.2 holds.id, Row.text_eq_ok_iff.2 holds.name,
      Row.text_eq_ok_iff.2 holds.authenticator, Row.time_eq_ok_iff.2 holds.createTime, bind,
      Except.bind]
    rfl

theorem reads_ofRow (r : Row) : r.Reads fields (ofRow r) := by
  apply (r.reads_integer "id").bind
  intro id
  apply (r.reads_text "name").bind
  intro name
  apply (r.reads_text "authenticator").bind
  intro authenticator
  apply (r.reads_time "create_time").bind
  intro createTime
  exact .pure r _

theorem ofRow_congr (r other : Row) (table : other.table = r.table)
    (same : ∀ f ∈ fields, other.get? f.column = r.get? f.column) : ofRow other = ofRow r := by
  simp only [fields, List.forall_mem_cons] at same
  obtain ⟨id, name, authenticator, createTime, -⟩ := same
  simp only [ofRow, Row.integer, Row.text, Row.time, Row.require, Row.wrongType, Row.mismatch,
    table, id, name, authenticator, createTime]

theorem maps_ofRow : Maps ofRow fields IsIn :=
  .of_get? (fun _ _ => ofRow_eq_ok_iff) reads_ofRow ofRow_congr

end Source

namespace Observation

def fields : List Field :=
  [⟨"id", .integer⟩, ⟨"source_id", .integer⟩, ⟨"julian_date", .real⟩, ⟨"polarization", .text⟩,
    ⟨"length_days", .real⟩]

/-- The row has the values of an observation. -/
structure IsIn (r : Row) (o : Observation) : Prop where
  id : r.Shows "id" (.integer o.id)
  sourceId : r.Shows "source_id" (.integer o.sourceId)
  julianDate : r.ShowsReal "julian_date" o.julianDate
  polarization : r.Shows "polarization" (.text o.polarization)
  lengthDays : r.ShowsReal "length_days" o.lengthDays

theorem ofRow_eq_ok_iff {r : Row} {o : Observation} : ofRow r = .ok o ↔ IsIn r o := by
  constructor
  · intro done
    obtain ⟨id, readId, done⟩ := Sql.ok_of_bind done
    obtain ⟨sourceId, readSource, done⟩ := Sql.ok_of_bind done
    obtain ⟨julianDate, readDate, done⟩ := Sql.ok_of_bind done
    obtain ⟨polarization, readPolarization, done⟩ := Sql.ok_of_bind done
    obtain ⟨lengthDays, readLength, done⟩ := Sql.ok_of_bind done
    cases done
    exact ⟨Row.integer_eq_ok_iff.1 readId, Row.integer_eq_ok_iff.1 readSource,
      Row.real_eq_ok_iff.1 readDate, Row.text_eq_ok_iff.1 readPolarization,
      Row.real_eq_ok_iff.1 readLength⟩
  · intro holds
    simp only [ofRow, Row.integer_eq_ok_iff.2 holds.id, Row.integer_eq_ok_iff.2 holds.sourceId,
      Row.real_eq_ok_iff.2 holds.julianDate, Row.text_eq_ok_iff.2 holds.polarization,
      Row.real_eq_ok_iff.2 holds.lengthDays, bind, Except.bind]
    rfl

theorem reads_ofRow (r : Row) : r.Reads fields (ofRow r) := by
  apply (r.reads_integer "id").bind
  intro id
  apply (r.reads_integer "source_id").bind
  intro sourceId
  apply (r.reads_real "julian_date").bind
  intro julianDate
  apply (r.reads_text "polarization").bind
  intro polarization
  apply (r.reads_real "length_days").bind
  intro lengthDays
  exact .pure r _

theorem ofRow_congr (r other : Row) (table : other.table = r.table)
    (same : ∀ f ∈ fields, other.get? f.column = r.get? f.column) : ofRow other = ofRow r := by
  simp only [fields, List.forall_mem_cons] at same
  obtain ⟨id, sourceId, julianDate, polarization, lengthDays, -⟩ := same
  simp only [ofRow, Row.integer, Row.text, Row.real, Row.require, Row.wrongType, Row.mismatch,
    table, id, sourceId, julianDate, polarization, lengthDays]

theorem maps_ofRow : Maps ofRow fields IsIn :=
  .of_get? (fun _ _ => ofRow_eq_ok_iff) reads_ofRow ofRow_congr

end Observation

end ObsCatalog
