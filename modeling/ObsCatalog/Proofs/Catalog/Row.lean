import ObsCatalog.Catalog.Row
import Mathlib.Data.List.Nodup

/-! Fields of rows.

A field of a record is read from the value below the first column of its name. A row that has no
such value, or one of another kind, lacks the field, and what is reported is the first field that
it lacks. No other column has any influence.
-/

set_option autoImplicit false

namespace ObsCatalog

namespace Row

variable {r other : Row} {column : String} {v w : Value}

def Shows (r : Row) (column : String) (v : Value) : Prop :=
  ∃ i : Nat, r.columns[i]? = some column ∧ (∀ j < i, r.columns[j]? ≠ some column) ∧ r.values[i]? = some v

theorem find?_zip_eq_some_iff {columns : List String} {values : List Value} :
    ((columns.zip values).find? (·.1 = column)).map (·.2) = some v ↔
      ∃ i : Nat, columns[i]? = some column ∧ (∀ j < i, columns[j]? ≠ some column) ∧
        values[i]? = some v := by
  induction columns generalizing values with
  | nil => simp
  | cons name columns ih =>
    cases values with
    | nil => simp
    | cons w values =>
      -- Either the first column has the name, or all places are one less in what follows it.
      by_cases first : name = column
      · constructor
        · intro found
          refine ⟨0, by simp [first], fun j below => absurd below (Nat.not_lt_zero j), ?_⟩
          simpa [first] using found
        · rintro ⟨i, -, none, found⟩
          cases i with
          | zero => simpa [first] using found
          | succ i => exact absurd (by simp [first]) (none 0 (Nat.succ_pos i))
      · rw [List.zip_cons_cons, List.find?_cons_of_neg (by simpa using first), ih]
        constructor
        · rintro ⟨i, named, none, found⟩
          refine ⟨i + 1, named, fun j below => ?_, found⟩
          cases j with
          | zero => simpa using first
          | succ j => exact none j (Nat.lt_of_succ_lt_succ below)
        · rintro ⟨i, named, none, found⟩
          cases i with
          | zero => exact absurd (Option.some.inj named) first
          | succ i =>
            exact ⟨i, named, fun j below => none (j + 1) (Nat.succ_lt_succ below), found⟩

theorem get?_eq_some_iff : r.get? column = some v ↔ r.Shows column v :=
  find?_zip_eq_some_iff

theorem get?_eq_none_iff : r.get? column = none ↔ ∀ v, ¬ r.Shows column v := by
  rw [Option.eq_none_iff_forall_ne_some]
  exact forall_congr' fun v => not_congr get?_eq_some_iff

theorem Shows.unique (first : r.Shows column v) (second : r.Shows column w) : v = w := by
  rw [← get?_eq_some_iff] at first second
  exact Option.some.inj (first.symm.trans second)

end Row

/-- What a field is read from: a value of a type, or a text that spells a time. -/
inductive Kind where
  | integer
  | real
  | text
  | time
  deriving DecidableEq, Repr

/-- The values that a field of a kind can be read from. -/
inductive Kind.Admits : Kind → Value → Prop where
  | integer (n : Int64) : Admits .integer (.integer n)
  | real (x : Float) : Admits .real (.real x)
  | widened (n : Int64) : Admits .real (.integer n)
  | text (s : String) : Admits .text (.text s)
  | time {s : String} {t : Calendar.Instant} : Calendar.Stamp.read s = .ok t →
      Admits .time (.text s)

/-- Why a field of a kind cannot be read from a value. -/
inductive Kind.Refuses : Kind → Value → String → Prop where
  | integer {v : Value} : (∀ n, v ≠ .integer n) →
      Refuses .integer v ("expected integer, found " ++ v.typeName)
  | real {v : Value} : (∀ x, v ≠ .real x) → (∀ n, v ≠ .integer n) →
      Refuses .real v ("expected real, found " ++ v.typeName)
  | text {v : Value} : (∀ s, v ≠ .text s) → Refuses .text v ("expected text, found " ++ v.typeName)
  | time {v : Value} : (∀ s, v ≠ .text s) → Refuses .time v ("expected text, found " ++ v.typeName)
  | unreadable {s : String} {fault : Calendar.ReadFault} : Calendar.Stamp.read s = .error fault →
      Refuses .time (.text s) fault.message

structure Field where
  column : String
  kind : Kind
  deriving DecidableEq, Repr

namespace Kind

variable {k : Kind} {v : Value} {reason again : String}

theorem Admits.not_refuses (admits : k.Admits v) : ¬ k.Refuses v reason := by
  intro refuses
  cases admits with
  | integer n => cases refuses with | integer other => exact other n rfl
  | real x => cases refuses with | real other _ => exact other x rfl
  | widened n => cases refuses with | real _ other => exact other n rfl
  | text s => cases refuses with | text other => exact other s rfl
  | time read =>
    cases refuses with
    | time other => exact other _ rfl
    | unreadable failed =>
      rw [read] at failed
      cases failed

theorem Refuses.unique (first : k.Refuses v reason) (second : k.Refuses v again) :
    reason = again := by
  cases first with
  | integer _ => cases second with | integer _ => rfl
  | real _ _ => cases second with | real _ _ => rfl
  | text _ => cases second with | text _ => rfl
  | time other =>
    cases second with
    | time _ => rfl
    | unreadable _ => exact absurd rfl (other _)
  | unreadable failed =>
    cases second with
    | time other => exact absurd rfl (other _)
    | unreadable again =>
      rw [failed] at again
      cases again
      rfl

theorem admits_or_refuses (k : Kind) (v : Value) : k.Admits v ∨ ∃ reason, k.Refuses v reason := by
  cases k with
  | integer =>
    cases v with
    | integer n => exact .inl (.integer n)
    | _ => exact .inr ⟨_, .integer nofun⟩
  | real =>
    cases v with
    | real x => exact .inl (.real x)
    | integer n => exact .inl (.widened n)
    | _ => exact .inr ⟨_, .real nofun nofun⟩
  | text =>
    cases v with
    | text s => exact .inl (.text s)
    | _ => exact .inr ⟨_, .text nofun⟩
  | time =>
    cases v with
    | text s =>
      cases read : Calendar.Stamp.read s with
      | ok t => exact .inl (.time read)
      | error fault => exact .inr ⟨_, .unreadable read⟩
    | _ => exact .inr ⟨_, .time nofun⟩

end Kind

namespace Row

variable {α β : Type} {r : Row} {f : Field} {fields : List Field} {reason again : String}
  {fault : CatalogFault}

/-- The row has a value that the field can be read from. -/
def Gives (r : Row) (f : Field) : Prop := ∃ v, r.Shows f.column v ∧ f.kind.Admits v

inductive Lacks (r : Row) (f : Field) : String → Prop where
  | missing : (∀ v, ¬ r.Shows f.column v) → Lacks r f "column missing from row"
  | refused {v : Value} {reason : String} : r.Shows f.column v → f.kind.Refuses v reason →
      Lacks r f reason

/-- What is reported of fields: the table, the column of the first one that the row lacks, and
why it does. -/
inductive Reports (r : Row) : List Field → CatalogFault → Prop where
  | first {f : Field} {fields : List Field} {reason : String} : r.Lacks f reason →
      Reports r (f :: fields) (.rowMapping r.table.name f.column reason)
  | later {f : Field} {fields : List Field} {fault : CatalogFault} : r.Gives f →
      Reports r fields fault → Reports r (f :: fields) fault

theorem Gives.not_lacks (gives : r.Gives f) : ¬ r.Lacks f reason := by
  intro lacks
  obtain ⟨v, shows, admits⟩ := gives
  cases lacks with
  | missing none => exact none v shows
  | refused shows' refuses =>
    rw [shows.unique shows'] at admits
    exact admits.not_refuses refuses

theorem Lacks.unique (first : r.Lacks f reason) (second : r.Lacks f again) : reason = again := by
  cases first with
  | missing none =>
    cases second with
    | missing _ => rfl
    | refused shows _ => exact absurd shows (none _)
  | refused shows refuses =>
    cases second with
    | missing none => exact absurd shows (none _)
    | refused shows' refuses' =>
      rw [shows.unique shows'] at refuses
      exact refuses.unique refuses'

/-- A reader of fields succeeds if the row gives all of them, and otherwise reports them. -/
structure Reads (r : Row) (fields : List Field) (read : Except CatalogFault α) : Prop where
  ok_iff : (∃ a, read = .ok a) ↔ ∀ f ∈ fields, r.Gives f
  error_iff (fault : CatalogFault) : read = .error fault ↔ r.Reports fields fault

theorem Reads.pure (r : Row) (a : α) : r.Reads [] (pure a : Except CatalogFault α) where
  ok_iff := ⟨fun _ => List.forall_mem_nil _, fun _ => ⟨a, rfl⟩⟩
  error_iff _ := ⟨nofun, nofun⟩

theorem reads_of_gives (gives : r.Gives f) (a : α) :
    r.Reads [f] (.ok a : Except CatalogFault α) where
  ok_iff := ⟨fun _ => List.forall_mem_singleton.2 gives, fun _ => ⟨a, rfl⟩⟩
  error_iff fault := by
    refine ⟨nofun, fun reports => ?_⟩
    cases reports with
    | first lacks => exact absurd lacks gives.not_lacks
    | later _ none => cases none

theorem reads_of_lacks (lacks : r.Lacks f reason) :
    r.Reads [f] (.error (.rowMapping r.table.name f.column reason) : Except CatalogFault α) where
  ok_iff := by
    refine ⟨nofun, fun gives => ?_⟩
    exact absurd lacks (List.forall_mem_singleton.1 gives).not_lacks
  error_iff fault := by
    constructor
    · rintro ⟨⟩
      exact .first lacks
    · intro reports
      cases reports with
      | first again => rw [lacks.unique again]
      | later _ none => cases none

theorem Reads.bind {x : Except CatalogFault β} {k : β → Except CatalogFault α}
    (first : r.Reads [f] x) (next : ∀ b, r.Reads fields (k b)) :
    r.Reads (f :: fields) (x >>= k) := by
  cases x with
  | error fault =>
    -- The first field is lacking, and nothing is said of the others.
    have reports := (first.error_iff fault).1 rfl
    cases reports with
    | later _ none => cases none
    | first lacks =>
      refine ⟨⟨nofun, fun gives => ?_⟩, fun other => ⟨?_, fun reports => ?_⟩⟩
      · exact absurd lacks (gives f List.mem_cons_self).not_lacks
      · rintro ⟨⟩
        exact .first lacks
      · cases reports with
        | first again =>
          rw [lacks.unique again]
          rfl
        | later gives _ => exact absurd lacks gives.not_lacks
  | ok b =>
    have gives : r.Gives f := List.forall_mem_singleton.1 (first.ok_iff.1 ⟨b, rfl⟩)
    refine ⟨?_, fun fault => ⟨fun failed => ?_, fun reports => ?_⟩⟩
    · rw [List.forall_mem_cons, and_iff_right gives]
      exact (next b).ok_iff
    · exact .later gives (((next b).error_iff fault).1 failed)
    · cases reports with
      | first lacks => exact absurd lacks gives.not_lacks
      | later _ reports => exact ((next b).error_iff fault).2 reports

theorem reads_value {read : Value → Except CatalogFault α}
    (admitted : ∀ v, f.kind.Admits v → ∃ a, read v = .ok a)
    (refused : ∀ v reason, f.kind.Refuses v reason → read v = r.mismatch f.column reason) :
    r.Reads [f] (r.require f.column >>= read) := by
  unfold require
  cases found : r.get? f.column with
  | none => exact reads_of_lacks (.missing (get?_eq_none_iff.1 found))
  | some v =>
    have shows := get?_eq_some_iff.1 found
    show r.Reads [f] (read v)
    rcases f.kind.admits_or_refuses v with admits | ⟨reason, refuses⟩
    · obtain ⟨a, done⟩ := admitted v admits
      rw [done]
      exact reads_of_gives ⟨v, shows, admits⟩ a
    · rw [refused v reason refuses]
      exact reads_of_lacks (.refused shows refuses)

theorem reads_integer (r : Row) (column : String) :
    r.Reads [⟨column, .integer⟩] (r.integer column) := by
  apply reads_value
  · intro v admits
    cases admits with
    | integer n => exact ⟨n, rfl⟩
  · intro v reason refuses
    cases refuses with
    | integer other =>
      cases v with
      | integer n => exact absurd rfl (other n)
      | _ => rfl

theorem reads_real (r : Row) (column : String) : r.Reads [⟨column, .real⟩] (r.real column) := by
  apply reads_value
  · intro v admits
    cases admits with
    | real x => exact ⟨x, rfl⟩
    | widened n => exact ⟨_, rfl⟩
  · intro v reason refuses
    cases refuses with
    | real notReal notInteger =>
      cases v with
      | real x => exact absurd rfl (notReal x)
      | integer n => exact absurd rfl (notInteger n)
      | _ => rfl

theorem reads_text (r : Row) (column : String) : r.Reads [⟨column, .text⟩] (r.text column) := by
  apply reads_value
  · intro v admits
    cases admits with
    | text s => exact ⟨s, rfl⟩
  · intro v reason refuses
    cases refuses with
    | text other =>
      cases v with
      | text s => exact absurd rfl (other s)
      | _ => rfl

theorem time_eq (r : Row) (column : String) :
    r.time column = r.require column >>= fun v =>
      match v with
      | .text s =>
        match Calendar.Stamp.read s with
        | .ok t => .ok t
        | .error fault => r.mismatch column fault.message
      | other => r.wrongType column "text" other := by
  unfold time text
  cases r.require column with
  | error fault => rfl
  | ok v => cases v <;> rfl

theorem reads_time (r : Row) (column : String) : r.Reads [⟨column, .time⟩] (r.time column) := by
  rw [time_eq]
  apply reads_value
  · intro v admits
    cases admits with
    | @time s t read => exact ⟨t, by simp only [read]⟩
  · intro v reason refuses
    cases refuses with
    | time other =>
      cases v with
      | text s => exact absurd rfl (other s)
      | _ => rfl
    | unreadable failed => simp only [failed]

theorem require_bind_eq_ok_iff {read : Value → Except CatalogFault α} {column : String} {a : α} :
    r.require column >>= read = .ok a ↔ ∃ v, r.Shows column v ∧ read v = .ok a := by
  unfold require
  cases found : r.get? column with
  | none =>
    have none := get?_eq_none_iff.1 found
    exact ⟨nofun, fun ⟨v, shows, _⟩ => absurd shows (none v)⟩
  | some v =>
    have shows := get?_eq_some_iff.1 found
    constructor
    · intro done
      exact ⟨v, shows, done⟩
    · rintro ⟨w, again, done⟩
      rwa [← shows.unique again] at done

theorem integer_eq_ok_iff {column : String} {n : Int64} :
    r.integer column = .ok n ↔ r.Shows column (.integer n) := by
  refine require_bind_eq_ok_iff.trans ⟨?_, fun shows => ⟨_, shows, rfl⟩⟩
  rintro ⟨v, shows, done⟩
  cases v with
  | integer m =>
    cases done
    exact shows
  | _ => cases done

theorem text_eq_ok_iff {column s : String} : r.text column = .ok s ↔ r.Shows column (.text s) := by
  refine require_bind_eq_ok_iff.trans ⟨?_, fun shows => ⟨_, shows, rfl⟩⟩
  rintro ⟨v, shows, done⟩
  cases v with
  | text other =>
    cases done
    exact shows
  | _ => cases done

/-- The row has a real below the column, or an integer that is widened to it. -/
def ShowsReal (r : Row) (column : String) (x : Float) : Prop :=
  r.Shows column (.real x) ∨ ∃ n, r.Shows column (.integer n) ∧ x = Real.ofInt n.toInt

theorem real_eq_ok_iff {column : String} {x : Float} :
    r.real column = .ok x ↔ r.ShowsReal column x := by
  apply require_bind_eq_ok_iff.trans
  constructor
  · rintro ⟨v, shows, done⟩
    cases v with
    | real y =>
      cases done
      exact .inl shows
    | integer n =>
      cases done
      exact .inr ⟨n, shows, rfl⟩
    | _ => cases done
  · rintro (shows | ⟨n, shows, rfl⟩)
    · exact ⟨_, shows, rfl⟩
    · exact ⟨_, shows, rfl⟩

def ShowsTime (r : Row) (column : String) (t : Calendar.Instant) : Prop :=
  ∃ s, r.Shows column (.text s) ∧ Calendar.Stamp.read s = .ok t

theorem time_eq_ok_iff {column : String} {t : Calendar.Instant} :
    r.time column = .ok t ↔ r.ShowsTime column t := by
  rw [time_eq]
  apply require_bind_eq_ok_iff.trans
  constructor
  · rintro ⟨v, shows, done⟩
    cases v with
    | text s =>
      refine ⟨s, shows, ?_⟩
      cases read : Calendar.Stamp.read s with
      | ok t =>
        simp only [read] at done
        cases done
        rfl
      | error fault =>
        simp only [read] at done
        cases done
    | _ => cases done
  · rintro ⟨s, shows, read⟩
    exact ⟨_, shows, by simp only [read]⟩

end Row

end ObsCatalog
