import ObsCatalog.Proofs.Json.Once
import ObsCatalog.Proofs.Settings.File

/-! Members of settings.

A member with a known name gives a field, if its value is of the type of the field. A
member with another name gives nothing, whatever its value.
-/

set_option autoImplicit false

namespace ObsCatalog

open Json Reader

namespace LogLevel

theorem reader_accepts_object (l : LogLevel) :
    Accepts LogLevel.reader (.object [(l.name, .null)]) l := by
  intro gap cs blank spelled p rest _
  cases spelled with | object members =>
  cases members with | @one lead _ _ _ hl member hr =>
  cases member with | @named _ _ _ _ title _ key hb ha value =>
  have named (left : List Text.Symbol) : readName ⟨chars lead (chars title left), false⟩ =
      .ok (l, ⟨left, false⟩) := by
    rw [readName, bind_ok (text_spelled _ hl key left false), ofName?_name]
    rfl
  have marked := ends_gap hr (ends_mark (.inr (.inl rfl)) rest)
  obtain ⟨q, read⟩ := null_accepts "unit" _ _ ha value false _ marked
  refine ⟨false, ?_⟩
  simp only [List.append_assoc, List.cons_append, chars_append, chars_cons, chars_nil] at read ⊢
  rw [LogLevel.reader, bind_ok (valueStart_gap blank (by decide) _ p)]
  show (advance >>= fun _ => readName >>= _) _ = _
  rw [bind_ok (advance_cons _ _ _), bind_ok (named _), bind_ok (colon_gap hb _ false), bind_ok read,
    bind_ok (blanks_gap hr (by decide) rest q)]
  rfl

theorem of_readName {before after : Cursor} {l : LogLevel}
    (ok : readName before = .ok (l, after)) :
    ∃ name, text "variant identifier" before = .ok (name, after) := by
  obtain ⟨name, between, read, ok⟩ := of_bind ok
  cases found : ofName? name with
  | none =>
    rw [found] at ok
    cases ok
  | some level =>
    rw [found] at ok
    cases ok
    exact ⟨name, read⟩

theorem tag_stops {title value before cs : List Char} (blank : IsGap before) (name : IsString title)
    (formed : IsValue value) (spelled : SpellsEntry (title, value) cs) {left : List Text.Symbol}
    (ends : Ends left) {p : Bool} {l : LogLevel} {atColon atValue after : Cursor}
    (named : readName ⟨chars before (chars cs left), p⟩ = .ok (l, atColon))
    (colons : colon atColon = .ok ((), atValue)) (nulls : null "unit" atValue = .ok ((), after)) :
    after.rest = left := by
  cases spelled with | @named _ _ hb ha blankBefore blankAfter =>
  obtain ⟨s, read⟩ := of_readName named
  rw [List.append_assoc, chars_append] at read
  obtain ⟨rest, q⟩ := atColon
  obtain rfl : rest = chars (hb ++ ':' :: (ha ++ value)) left := text_string _ blank name read
  rw [chars_append, chars_cons, colon_gap blankBefore] at colons
  cases colons
  exact (null_stops "unit" formed _ blankAfter false left () after ends nulls).1

theorem tagged_stops {entries : List (List Char × List Char)} {cs : List Char}
    (formed : IsBody entries cs) {rest : List Text.Symbol} {p : Bool} {l : LogLevel} {after : Cursor}
    (ok : (do
      let level ← readName
      colon
      null "unit"
      match ← blanks with
      | some (.char '}') => do
        advance
        pure level
      | some _ => fail (.malformed .noValue)
      | none => fail (.ended .object) : Reader LogLevel) ⟨chars cs (.char '}' :: rest), p⟩ =
        .ok (l, after)) : after.rest = rest := by
  obtain ⟨level, atColon, named, ok⟩ := of_bind ok
  obtain ⟨_, atValue, colons, ok⟩ := of_bind ok
  obtain ⟨_, ⟨left, q⟩, nulls, ok⟩ := of_bind ok
  obtain ⟨names, values, laid⟩ := formed
  cases laid with
  | none blank =>
    -- The bracket that closes the object is not the name of a level.
    obtain ⟨name, read⟩ := of_readName named
    rw [Reader.text, bind_ok (valueStart_gap blank (by decide) rest p)] at read
    exact absurd read (never_wrongKind _ _ _ _)
  | @one before between cs entry hl spelled hr =>
    rw [chars_append, chars_append] at named
    obtain rfl : left = chars between (.char '}' :: rest) :=
      tag_stops hl (names _ List.mem_cons_self) (values _ List.mem_cons_self) spelled
        (ends_gap hr (ends_mark (.inr (.inl rfl)) rest)) named colons nulls
    rw [bind_ok (blanks_gap hr (by decide) rest q)] at ok
    cases ok
    rfl
  | @more before between cs others entry next later hl spelled hr tail =>
    rw [chars_append, chars_append, chars_append, chars_cons] at named
    obtain rfl : left = chars between (.char ',' :: chars others (.char '}' :: rest)) :=
      tag_stops hl (names _ List.mem_cons_self) (values _ List.mem_cons_self) spelled
        (ends_gap hr (ends_mark (.inl rfl) _)) named colons nulls
    -- A comma stands where the object has to be closed.
    rw [bind_ok (blanks_gap hr (by decide) _ q)] at ok
    cases ok

theorem reader_stops {value : List Char} (formed : IsValue value) :
    YieldsValue LogLevel.reader value fun _ => True := by
  intro gap blank p rest l after ends ok
  obtain ⟨c, more, rfl, starts⟩ := formed.starts
  rw [chars_append, chars_cons, LogLevel.reader,
    bind_ok (valueStart_gap blank (solid_of_startsValue starts).1 _ p)] at ok
  by_cases quote : c = '"'
  · subst quote
    obtain ⟨name, read⟩ := of_readName ok
    exact ⟨(text_stops _ formed [] isGap_nil true rest name after ends read).1, trivial⟩
  · by_cases brace : c = '{'
    · obtain ⟨entries, cs, inside, rfl⟩ := formed.head.object brace
      subst brace
      obtain ⟨_, inner, moved, ok⟩ := of_bind ok
      cases moved
      rw [List.tail_cons, chars_append] at ok
      exact ⟨tagged_stops inside ok, trivial⟩
    · simp [quote, brace] at ok
      cases ok

end LogLevel

namespace Locations

inductive Field where
  | directory (d : Option String)
  | librarianFile (name : String)
  | monitorControlFile (name : String)
  | createIfMissing (create : Bool)

namespace Field

def name : Field → String
  | .directory _ => "data_dir"
  | .librarianFile _ => "librarian_file"
  | .monitorControlFile _ => "mc_file"
  | .createIfMissing _ => "create_if_missing"

def json : Field → Json
  | .directory (some d) => .text d
  | .directory none => .null
  | .librarianFile name => .text name
  | .monitorControlFile name => .text name
  | .createIfMissing create => .bool create

end Field

def fieldNames : List String := ["data_dir", "librarian_file", "mc_file", "create_if_missing"]

theorem Field.name_mem (f : Field) : f.name ∈ fieldNames := by
  cases f <;> simp [name, fieldNames]

def put (l : Locations) : Field → Locations
  | .directory d => { l with directory := d }
  | .librarianFile name => { l with librarianFile := name }
  | .monitorControlFile name => { l with monitorControlFile := name }
  | .createIfMissing create => { l with createIfMissing := create }

namespace Draft

def put (d : Draft) : Field → Draft
  | .directory directory => { d with directory := some directory }
  | .librarianFile name => { d with librarianFile := some name }
  | .monitorControlFile name => { d with monitorControlFile := some name }
  | .createIfMissing create => { d with createIfMissing := some create }

def Has (d : Draft) (name : String) : Prop :=
  (name = "data_dir" ∧ d.directory.isSome) ∨ (name = "librarian_file" ∧ d.librarianFile.isSome) ∨
  (name = "mc_file" ∧ d.monitorControlFile.isSome) ∨
  (name = "create_if_missing" ∧ d.createIfMissing.isSome)

@[simp] theorem completed_put (d : Draft) (f : Field) :
    (d.put f).completed = d.completed.put f := by
  cases f <;> rfl

theorem has_put {d : Draft} {f : Field} {name : String} :
    (d.put f).Has name ↔ d.Has name ∨ name = f.name := by
  cases f <;> simp only [Has, put, Field.name, Option.isSome_some] <;> grind

theorem put_has {d : Draft} {f : Field} (fresh : ¬ d.Has f.name) :
    (∀ n, d.Has n → (d.put f).Has n) ∧
      (f.name ∈ fieldNames → ¬ d.Has f.name ∧ (d.put f).Has f.name) :=
  ⟨fun _ has => has_put.2 (.inl has), fun _ => ⟨fresh, has_put.2 (.inr rfl)⟩⟩

end Draft

theorem readMember_skips {name : String} (other : name ∉ fieldNames) (d : Draft)
    {value : List Char} (formed : IsValue value) : TakesMember (readMember name d) value d := by
  have unknown : readMember name d = (do
      skipMember
      pure d) := by
    simp only [fieldNames, List.mem_cons, List.not_mem_nil, or_false, not_or] at other
    unfold readMember
    split <;> simp_all
  rw [unknown]
  exact (skipMember_takes formed).bind fun _ => rfl

theorem readMember_takes (f : Field) {d : Draft} (fresh : ¬ d.Has f.name) {value : List Char}
    (spelled : Spells f.json value) : TakesMember (readMember f.name d) value (d.put f) := by
  obtain ⟨directory, librarianFile, monitorControlFile, createIfMissing⟩ := d
  cases f with
  | directory given =>
    obtain rfl : directory = none := by simpa [Draft.Has, Field.name] using fresh
    have takes : Accepts readDirectory (Field.directory given).json given := by
      cases given with
      | none => exact readDirectory_accepts none
      | some d => exact readDirectory_accepts (some d)
    exact (once_takes (fun gap blank => takes gap value blank spelled) "data_dir").bind fun _ => rfl
  | librarianFile name =>
    obtain rfl : librarianFile = none := by simpa [Draft.Has, Field.name] using fresh
    exact (once_takes (fun gap blank => text_accepts "a string" name gap value blank spelled)
      "librarian_file").bind fun _ => rfl
  | monitorControlFile name =>
    obtain rfl : monitorControlFile = none := by simpa [Draft.Has, Field.name] using fresh
    exact (once_takes (fun gap blank => text_accepts "a string" name gap value blank spelled)
      "mc_file").bind fun _ => rfl
  | createIfMissing create =>
    obtain rfl : createIfMissing = none := by simpa [Draft.Has, Field.name] using fresh
    exact (once_takes (fun gap blank => bool_accepts create gap value blank spelled)
      "create_if_missing").bind fun _ => rfl

inductive Gives : List Char × List Char → List Field → Prop
  | known (f : Field) {title value : List Char} (key : SpellsString f.name title)
      (spelled : Spells f.json value) : Gives (title, value) [f]
  | unknown {name : String} {title value : List Char} (key : SpellsString name title)
      (other : name ∉ fieldNames) (formed : IsValue value) : Gives (title, value) []

theorem takes_gives {e : List Char × List Char} {group : List Field} {d : Draft}
    (gives : Gives e group) (fresh : ∀ name, SpellsString name e.1 → ¬ d.Has name) :
    ∃ name next, SpellsString name e.1 ∧ TakesMember (readMember name d) e.2 next ∧
      next.completed = group.foldl put d.completed ∧
      ∀ n, next.Has n → d.Has n ∨ n = name ∧ name ∈ fieldNames := by
  cases gives with
  | known f key spelled =>
    refine ⟨f.name, d.put f, key, readMember_takes f (fresh f.name key) spelled,
      Draft.completed_put d f, fun n has => ?_⟩
    exact (Draft.has_put.1 has).imp_right fun same => ⟨same, f.name_mem⟩
  | @unknown name _ _ key other formed =>
    exact ⟨name, d, key, readMember_skips other d formed, rfl, fun _ => .inl⟩

theorem Gives.titled {e : List Char × List Char} {group : List Field} (gives : Gives e group)
    {f : Field} (member : f ∈ group) : SpellsString f.name e.1 := by
  cases gives with
  | known g key =>
    cases List.mem_singleton.1 member
    exact key
  | unknown => cases member

theorem Gives.nodup {e : List Char × List Char} {group : List Field} (gives : Gives e group) :
    (group.map Field.name).Nodup := by
  cases gives with
  | known => exact List.pairwise_singleton _ _
  | unknown => exact List.nodup_nil

/-! Members whose values may be of any type. -/

/-- A member with a known name is read if its field has not been read yet, and it counts as
read then. -/
theorem readMember_yields (name : String) (d : Draft) {value : List Char}
    (formed : IsValue value) : YieldsMember (readMember name d) value fun next =>
      (∀ n, d.Has n → next.Has n) ∧ (name ∈ fieldNames → ¬ d.Has name ∧ next.Has name) := by
  by_cases listed : name ∈ fieldNames
  · simp only [fieldNames, List.mem_cons, List.not_mem_nil, or_false] at listed
    rcases listed with rfl | rfl | rfl | rfl
    · have stops := optional_stops formed (text_stops "path string" formed)
      refine (once_yields stops "data_dir" d.directory).bind (fun _ _ => rfl) ?_
      rintro _ ⟨fresh, given, rfl, _⟩
      exact Draft.put_has (f := .directory given) (by simp [Draft.Has, Field.name, fresh])
    · have stops := text_stops "a string" formed
      refine (once_yields stops "librarian_file" d.librarianFile).bind (fun _ _ => rfl) ?_
      rintro _ ⟨fresh, given, rfl, _⟩
      exact Draft.put_has (f := .librarianFile given) (by simp [Draft.Has, Field.name, fresh])
    · have stops := text_stops "a string" formed
      refine (once_yields stops "mc_file" d.monitorControlFile).bind (fun _ _ => rfl) ?_
      rintro _ ⟨fresh, given, rfl, _⟩
      exact Draft.put_has (f := .monitorControlFile given) (by simp [Draft.Has, Field.name, fresh])
    · have stops := bool_stops formed
      refine (once_yields stops "create_if_missing" d.createIfMissing).bind (fun _ _ => rfl) ?_
      rintro _ ⟨fresh, given, rfl, _⟩
      exact Draft.put_has (f := .createIfMissing given) (by simp [Draft.Has, Field.name, fresh])
  · intro before after hb ha
    refine (readMember_skips listed d formed before after hb ha).yields.weaken ?_
    rintro _ rfl
    exact ⟨fun _ has => has, fun known => absurd known listed⟩

/-- Locations are only read if each of their fields is given once at most. -/
def OnceIn (value : List Char) : Prop :=
  ∀ entries cs, IsBody entries cs → value = '{' :: cs ++ ['}'] → Once fieldNames entries

theorem readObject_yields {entries : List (List Char × List Char)} {cs : List Char}
    (formed : IsBody entries cs) {rest : List Text.Symbol} {p : Bool} {l : Locations} {after : Cursor}
    (ok : readObject ⟨chars cs (.char '}' :: rest), p⟩ = .ok (l, after)) :
    after.rest = .char '}' :: rest ∧ Once fieldNames entries := by
  have keeps : Keeps readMember (ReadOnce fieldNames Draft.Has fun _ _ => True) :=
    keeps_once fun name d value formed =>
      YieldsMember.weaken (readMember_yields name d formed) fun _ known => ⟨trivial, known⟩
  obtain ⟨d, between, read, ok⟩ := of_bind ok
  obtain ⟨⟨once, _⟩, stops⟩ := members_keeps keeps formed (readOnce_nil _) read
  cases ok
  exact ⟨stops, once⟩

theorem readList_remains {rest : List Text.Symbol} {before after : Cursor}
    (remains : Remains rest true before.rest) {l : Locations}
    (ok : readList before = .ok (l, after)) : Remains rest false after.rest := by
  obtain ⟨_, _, first, ok⟩ := of_bind ok
  obtain ⟨_, _, second, ok⟩ := of_bind ok
  obtain ⟨_, _, third, ok⟩ := of_bind ok
  obtain ⟨_, _, fourth, ok⟩ := of_bind ok
  cases ok
  have text (value : List Char) (formed : IsValue value) := text_stops "a string" formed
  have afterFirst := element_remains 0
    (fun value formed => optional_stops formed (text_stops "path string" formed)) remains first
  have afterSecond := element_remains 1 text afterFirst second
  have afterThird := element_remains 2 text afterSecond third
  exact element_remains 3 (fun value formed => bool_stops formed) afterThird fourth

theorem reader_yields {value : List Char} (formed : IsValue value) :
    YieldsValue reader value fun _ => OnceIn value := by
  refine record_yields formed ?_ ?_
  · intro entries cs inside shape rest p l after ok
    refine ⟨(readObject_yields inside ok).1, fun others body formed same => ?_⟩
    -- Whatever entries the text is taken to have, all of them have been read.
    obtain rfl : body = cs := by simpa using same.symm.trans shape
    exact (readObject_yields formed ok).2
  · intro bracket rest before remains l after ok
    refine ⟨readList_remains remains ok, fun entries cs _ shape => ?_⟩
    simp [shape] at bracket

end Locations

end ObsCatalog
