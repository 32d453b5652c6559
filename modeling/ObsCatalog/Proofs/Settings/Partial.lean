import Mathlib.Data.List.Nodup
import ObsCatalog.Proofs.Settings.Member

/-! Settings of which only a part is given.

A text gives some of the fields, in any order and among other members. Loading it yields
the standard settings with these fields replaced. A text that gives a field twice is not
loaded.
-/

set_option autoImplicit false

namespace ObsCatalog.Settings

open Json Reader

/-- A field with a value for it, of the settings or of the locations in them. -/
inductive Field where
  | locations (f : Locations.Field)
  | logLevel (level : LogLevel)

def fieldNames : List String := ["database", "log_level"]

def put (s : Settings) : Field → Settings
  | .locations f => { s with locations := s.locations.put f }
  | .logLevel level => { s with logLevel := level }

namespace Draft

def Has (d : Draft) (name : String) : Prop :=
  (name = "database" ∧ d.locations.isSome) ∨ (name = "log_level" ∧ d.logLevel.isSome)

end Draft

theorem readMember_skips {name : String} (other : name ∉ fieldNames) (d : Draft)
    {value : List Char} (formed : IsValue value) : TakesMember (readMember name d) value d := by
  have unknown : readMember name d = (do
      skipMember
      pure d) := by
    simp only [fieldNames, List.mem_cons, List.not_mem_nil, or_false, not_or] at other
    unfold readMember
    split <;> simp_all
  rw [unknown]
  exact (skipMember_takes formed).bind fun _ => rfl

theorem foldl_put_locations (fs : List Locations.Field) (s : Settings) :
    (fs.map .locations).foldl put s = { s with locations := fs.foldl Locations.put s.locations } := by
  induction fs generalizing s with
  | nil => rfl
  | cons f rest ih => exact ih _

/-- The fields that a member gives. The locations are an object of their own, and a level may
be an object whose only member is null. -/
inductive Gives : List Char × List Char → List Field → Prop
  | locations {title cs : List Char} {entries : List (List Char × List Char)}
      {groups : List (List Locations.Field)} (key : SpellsString "database" title)
      (laid : Separated SpellsEntry entries cs)
      (given : List.Forall₂ Locations.Gives entries groups)
      (once : Once Locations.fieldNames entries) :
      Gives (title, '{' :: cs ++ ['}']) (groups.flatten.map .locations)
  | logLevel (level : LogLevel) {title value : List Char} {j : Json}
      (key : SpellsString "log_level" title)
      (typed : j = level.json ∨ j = .object [(level.name, .null)]) (spelled : Spells j value) :
      Gives (title, value) [.logLevel level]
  | unknown {name : String} {title value : List Char} (key : SpellsString name title)
      (other : name ∉ fieldNames) (formed : IsValue value) : Gives (title, value) []

def IsObject (cs : List Char) (text : String) : Prop :=
  ∃ before after, IsGap before ∧ IsGap after ∧
    text.toList = before ++ ('{' :: cs ++ ['}']) ++ after

inductive Describes (text : String) : List Field → Prop
  | object {cs : List Char} {entries : List (List Char × List Char)} {groups : List (List Field)}
      (whole : IsObject cs text) (laid : Separated SpellsEntry entries cs)
      (given : List.Forall₂ Gives entries groups) (once : Once fieldNames entries) :
      Describes text groups.flatten

/-- The text gives a member of the settings or of the locations in them twice. -/
inductive Repeats (text : String) : Prop
  | settings {cs : List Char} {entries : List (List Char × List Char)} (whole : IsObject cs text)
      (formed : IsBody entries cs) (twice : ¬ Once fieldNames entries)
  | locations {cs title inner : List Char} {entries members : List (List Char × List Char)}
      (whole : IsObject cs text) (formed : IsBody entries cs)
      (member : (title, '{' :: inner ++ ['}']) ∈ entries) (key : SpellsString "database" title)
      (within : IsBody members inner) (twice : ¬ Once Locations.fieldNames members)

theorem takes_locations {entries : List (List Char × List Char)} {cs : List Char}
    {groups : List (List Locations.Field)} (laid : Separated SpellsEntry entries cs)
    (given : List.Forall₂ Locations.Gives entries groups)
    (once : Once Locations.fieldNames entries) :
    TakesValue Locations.reader ('{' :: cs ++ ['}'])
      (groups.flatten.foldl Locations.put .standard) := by
  have fresh : Fresh Locations.Draft.Has ⟨none, none, none, none⟩ entries := by
    intro e _ name _
    simp [Locations.Draft.Has]
  obtain ⟨last, fills, result⟩ := fillsText_of_gives Locations.takes_gives given once fresh
  refine record_takes fun rest p => ?_
  rw [Locations.readObject, bind_ok (members_fillsText fills laid rest p)]
  rw [show Locations.standard = (⟨none, none, none, none⟩ : Locations.Draft).completed from rfl,
    ← result]
  rfl

theorem takes_logLevel {level : LogLevel} {j : Json} {value : List Char}
    (typed : j = level.json ∨ j = .object [(level.name, .null)]) (spelled : Spells j value) :
    TakesValue LogLevel.reader value level := by
  intro gap blank
  rcases typed with rfl | rfl
  · exact level.reader_accepts gap value blank spelled
  · exact level.reader_accepts_object gap value blank spelled

theorem takes_gives {e : List Char × List Char} {group : List Field} {d : Draft}
    (gives : Gives e group) (fresh : ∀ name, SpellsString name e.1 → ¬ d.Has name) :
    ∃ name next, SpellsString name e.1 ∧ TakesMember (readMember name d) e.2 next ∧
      next.completed = group.foldl put d.completed ∧
      ∀ n, next.Has n → d.Has n ∨ n = name ∧ name ∈ fieldNames := by
  cases gives with
  | @locations title cs members fields key laid given once =>
    have absent : d.locations = none := by simpa [Draft.Has] using fresh "database" key
    let read := fields.flatten.foldl Locations.put .standard
    refine ⟨"database", { d with locations := some read }, key, ?_, ?_, ?_⟩
    · rw [readMember, absent]
      exact (once_takes (takes_locations laid given once) "database").bind fun _ => rfl
    · -- The locations of the draft are the standard ones, from which the reader starts as well.
      rw [foldl_put_locations]
      simp only [Draft.completed, absent]
      rfl
    · rintro n (⟨same, _⟩ | other)
      · exact .inr ⟨same, by decide⟩
      · exact .inl (.inr other)
  | logLevel level key typed spelled =>
    have absent : d.logLevel = none := by simpa [Draft.Has] using fresh "log_level" key
    refine ⟨"log_level", { d with logLevel := some level }, key, ?_, rfl, ?_⟩
    · rw [readMember, absent]
      exact (once_takes (takes_logLevel typed spelled) "log_level").bind fun _ => rfl
    · rintro n (other | ⟨same, _⟩)
      · exact .inl (.inl other)
      · exact .inr ⟨same, by decide⟩
  | @unknown name _ _ key other formed =>
    exact ⟨name, d, key, readMember_skips other d formed, rfl, fun _ => .inl⟩

theorem read_describes {text : String} {fields : List Field} (described : Describes text fields) :
    read (Text.symbols text) = .ok (fields.foldl put standard) := by
  cases described with | @object cs entries groups whole laid given once =>
  obtain ⟨before, after, hb, ha, whole⟩ := whole
  have fresh : Fresh Draft.Has ⟨none, none⟩ entries := by
    intro e _ name _
    simp [Draft.Has]
  obtain ⟨last, fills, result⟩ := fillsText_of_gives takes_gives given once fresh
  refine document_takes (record_takes fun rest p => ?_) hb ha whole
  rw [readObject, bind_ok (members_fillsText fills laid rest p)]
  show Except.ok (last.completed, _) = _
  rw [result]
  rfl

def Field.name : Field → String
  | .locations f => f.name
  | .logLevel _ => "log_level"

theorem put_comm (s : Settings) {f g : Field} (differ : f.name ≠ g.name) :
    (s.put f).put g = (s.put g).put f := by
  cases f with
  | logLevel level =>
    cases g with
    | logLevel other => exact absurd rfl differ
    | locations g => rfl
  | locations f =>
    cases g with
    | logLevel other => rfl
    | locations g =>
      cases f <;> cases g <;> first
        | rfl
        | exact absurd rfl differ

def Field.title : Field → String
  | .locations _ => "database"
  | .logLevel _ => "log_level"

theorem Field.title_mem (f : Field) : f.title ∈ fieldNames := by
  cases f <;> simp [title, fieldNames]

theorem Field.title_eq {f g : Field} (same : f.name = g.name) : f.title = g.title := by
  have apart (f : Locations.Field) : f.name ≠ "log_level" := by
    cases f <;> simp [Locations.Field.name]
  cases f with
  | locations f =>
    cases g with
    | locations g => rfl
    | logLevel => exact absurd same (apart f)
  | logLevel =>
    cases g with
    | locations g => exact absurd same.symm (apart g)
    | logLevel => rfl

theorem Gives.titled {entry : List Char × List Char} {group : List Field}
    (gives : Gives entry group) {f : Field} (member : f ∈ group) :
    SpellsString f.title entry.1 := by
  cases gives with
  | locations key =>
    obtain ⟨_, _, rfl⟩ := List.mem_map.1 member
    exact key
  | logLevel level key =>
    cases List.mem_singleton.1 member
    exact key
  | unknown => cases member

theorem Gives.nodup {entry : List Char × List Char} {group : List Field}
    (gives : Gives entry group) : (group.map Field.name).Nodup := by
  cases gives with
  | locations _ _ given once =>
    rw [List.map_map]
    exact nodup_of_gives Locations.Gives.titled Locations.Field.name_mem id Locations.Gives.nodup
      given once
  | logLevel => exact List.nodup_singleton _
  | unknown => exact List.nodup_nil

theorem Describes.nodup {text : String} {fields : List Field} (described : Describes text fields) :
    (fields.map Field.name).Nodup := by
  cases described with | object _ _ given once =>
  exact nodup_of_gives Gives.titled Field.title_mem Field.title_eq Gives.nodup given once

/-- Fields of different names may be replaced in any order. -/
theorem foldl_put_perm {fields order : List Field} (unique : (fields.map Field.name).Nodup)
    (perm : order.Perm fields) (s : Settings) : order.foldl put s = fields.foldl put s := by
  refine (perm.symm.foldl_eq' ?_ s).symm
  intro f hf g hg s
  by_cases same : f.name = g.name
  · rw [List.inj_on_of_nodup_map unique hf hg same]
  · exact put_comm s same

theorem readMember_yields (name : String) (d : Draft) {value : List Char}
    (formed : IsValue value) : YieldsMember (readMember name d) value fun next =>
      (name = "database" → Locations.OnceIn value) ∧ (∀ n, d.Has n → next.Has n) ∧
        (name ∈ fieldNames → ¬ d.Has name ∧ next.Has name) := by
  by_cases listed : name ∈ fieldNames
  · simp only [fieldNames, List.mem_cons, List.not_mem_nil, or_false] at listed
    rcases listed with rfl | rfl
    · have reads := once_yields (Locations.reader_yields formed) "database" d.locations
      refine reads.bind (fun _ _ => rfl) ?_
      rintro _ ⟨fresh, given, rfl, once⟩
      refine ⟨fun _ => once, ?_, fun _ => ?_⟩
      · rintro n (⟨rfl, _⟩ | other)
        · exact .inl ⟨rfl, rfl⟩
        · exact .inr other
      · simp [Draft.Has, fresh]
    · have reads := once_yields (LogLevel.reader_stops formed) "log_level" d.logLevel
      refine reads.bind (fun _ _ => rfl) ?_
      rintro _ ⟨fresh, given, rfl, _⟩
      refine ⟨fun same => absurd same (by decide), ?_, fun _ => ?_⟩
      · rintro n (other | ⟨rfl, _⟩)
        · exact .inl other
        · exact .inr ⟨rfl, rfl⟩
      · simp [Draft.Has, fresh]
  -- A member of another name is skipped, and the draft stays as it is.
  · intro before after hb ha
    refine (readMember_skips listed d formed before after hb ha).yields.weaken ?_
    rintro _ rfl
    refine ⟨?_, fun _ has => has, fun known => absurd known listed⟩
    rintro rfl
    exact absurd (by decide) listed

theorem once_of_read {cs : List Char} {text : String} (whole : IsObject cs text) {s : Settings}
    (ok : read (Text.symbols text) = .ok s) {entries : List (List Char × List Char)}
    (formed : IsBody entries cs) : Once fieldNames entries ∧
      ∀ e ∈ entries, SpellsString "database" e.1 → Locations.OnceIn e.2 := by
  obtain ⟨before, after, hb, ha, whole⟩ := whole
  have keeps := keeps_once fun name d value formed => readMember_yields name d formed
  have value : IsValue ('{' :: cs ++ ['}']) := .object formed.names formed.values formed.laid
  have yields : YieldsValue reader ('{' :: cs ++ ['}']) fun _ => Once fieldNames entries ∧
      ∀ e ∈ entries, SpellsString "database" e.1 → Locations.OnceIn e.2 := by
    refine record_yields value ?_ ?_
    · intro others body inside shape rest p s last ok
      obtain rfl : cs = body := by simpa using shape
      obtain ⟨d, between, read, ok⟩ := of_bind ok
      cases ok
      obtain ⟨⟨once, known⟩, stops⟩ := members_keeps keeps formed (readOnce_nil _) read
      exact ⟨stops, once, fun e member key => (known e member "database" key).1 rfl⟩
    · intro bracket
      cases bracket
  exact document_yields yields hb ha whole ok

theorem read_repeats {text : String} (repeats : Repeats text) :
    ∃ fault, read (Text.symbols text) = .error fault := by
  cases result : read (Text.symbols text) with
  | error fault => exact ⟨fault, rfl⟩
  | ok s =>
    cases repeats with
    | settings whole formed twice => exact absurd (once_of_read whole result formed).1 twice
    | locations whole formed member key within twice =>
      have once := (once_of_read whole result formed).2 _ member key
      exact absurd (once _ _ within rfl) twice

section

variable {δ : Type} {disk : Disk δ} {path : String} {place : Place} {text : String}

/-- A file that gives each of some fields once, in any order and among members with any other
names, is loaded as the standard settings with these fields replaced. So it is loaded as any
other file that gives the same fields. A file that gives a field twice is not loaded. -/
theorem load_partial (reached : disk.locate path = .ok place)
    (found : disk.get? place = some (.text (Text.symbols text))) :
    (∀ fields, Describes text fields → load disk path = .ok (fields.foldl put standard)) ∧
    (∀ fields, Describes text fields → ∀ {otherPath : String} {otherPlace : Place}
      {other : String} {order : List Field}, disk.locate otherPath = .ok otherPlace →
      disk.get? otherPlace = some (.text (Text.symbols other)) → Describes other order →
      order.Perm fields → load disk otherPath = load disk path) ∧
    (Repeats text → ∃ reason, load disk path = .error (.unreadable path reason)) := by
  refine ⟨fun fields described => load_text reached found (read_describes described), ?_, ?_⟩
  · intro fields described otherPath otherPlace other order reachedOther foundOther describedOther
      perm
    rw [load_text reached found (read_describes described),
      load_text reachedOther foundOther (read_describes describedOther),
      foldl_put_perm described.nodup perm]
  · intro repeats
    obtain ⟨fault, failed⟩ := read_repeats repeats
    exact ⟨_, load_error reached found failed⟩

/-- Two files that give the same fields, and one that gives a level twice. -/
theorem load_partial_files :
    let disk : Disk Unit := ⟨[], [
      (["a.json"], .text (Text.symbols
        "\x7b\"x\":[\x7b\x7d],\"log_level\":\"warn\",\"database\":\x7b\"mc_file\":\"m\"\x7d\x7d")),
      (["b.json"], .text (Text.symbols
        "\x7b\"database\":\x7b\"mc_file\":\"m\"\x7d,\"log_level\":\"warn\"\x7d")),
      (["c.json"], .text (Text.symbols "\x7b\"log_level\":\"warn\",\"log_level\":[]\x7d"))]⟩
    load disk "a.json" = .ok ⟨⟨none, "librarian.db", "m", true⟩, .warn⟩ ∧
      load disk "b.json" = load disk "a.json" ∧
      ∃ reason, load disk "c.json" = .error (.unreadable "c.json" reason) := by
  intro disk
  have gap := isGap_nil
  have key := spellsString_stringText
  have entry {title value : List Char} :
      SpellsEntry (title, value) (title ++ [] ++ ':' :: ([] ++ value)) := .named gap gap
  have list : IsValue ['[', ']'] := .array (fun _ member => absurd member List.not_mem_nil) (.none gap)
  have object : IsValue ['{', '}'] := .object (fun _ member => absurd member List.not_mem_nil)
    (fun _ member => absurd member List.not_mem_nil) (.none gap)
  have unknown : Gives (stringText "x", '[' :: ([] ++ ['{', '}'] ++ []) ++ [']']) [] := by
    refine .unknown (key "x") (by decide) (@IsValue.array [['{', '}']] _ ?_ (.one gap rfl gap))
    intro item member
    cases List.mem_singleton.1 member
    exact object
  have level : Gives (stringText "log_level", stringText "warn") [.logLevel .warn] :=
    .logLevel .warn (key _) (.inl rfl) (.text (key _))
  have locations : Gives (stringText "database", '{' :: ([] ++ _ ++ []) ++ ['}'])
      [.locations (.monitorControlFile "m")] :=
    .locations (key _) (.one gap entry gap)
      (.cons (.known (.monitorControlFile "m") (key _) (.text (key _))) .nil)
      (once_of_nodup (.cons (key _) .nil) (by decide) _)
  have first : Describes
      "\x7b\"x\":[\x7b\x7d],\"log_level\":\"warn\",\"database\":\x7b\"mc_file\":\"m\"\x7d\x7d"
      [.logLevel .warn, .locations (.monitorControlFile "m")] :=
    .object ⟨[], [], gap, gap, by decide⟩ (.more gap entry gap (.more gap entry gap (.one gap entry gap)))
      (.cons unknown (.cons level (.cons locations .nil)))
      (once_of_nodup (.cons (key _) (.cons (key _) (.cons (key _) .nil))) (by decide) _)
  have second : Describes "\x7b\"database\":\x7b\"mc_file\":\"m\"\x7d,\"log_level\":\"warn\"\x7d"
      [.locations (.monitorControlFile "m"), .logLevel .warn] :=
    .object ⟨[], [], gap, gap, by decide⟩ (.more gap entry gap (.one gap entry gap))
      (.cons locations (.cons level .nil))
      (once_of_nodup (.cons (key _) (.cons (key _) .nil)) (by decide) _)
  have third : Repeats "\x7b\"log_level\":\"warn\",\"log_level\":[]\x7d" := by
    have laid : Separated SpellsEntry [(stringText "log_level", stringText "warn"),
        (stringText "log_level", ['[', ']'])] _ := .more gap entry gap (.one gap entry gap)
    refine .settings ⟨[], [], gap, gap, by decide⟩ ⟨?_, ?_, laid⟩ fun once => ?_
    · simpa using (key "log_level").isString
    · simpa using ⟨.text (key "warn").isString, list⟩
    · have apart := (List.pairwise_cons.1 once).1 _ List.mem_cons_self "log_level" (by decide)
      exact apart (key _) (key _)
  have loadFirst := @load_partial Unit disk "a.json" ["a.json"] _ (by decide) rfl
  have loadThird := @load_partial Unit disk "c.json" ["c.json"] _ (by decide) rfl
  have reachedSecond : disk.locate "b.json" = .ok ["b.json"] := by decide
  exact ⟨loadFirst.1 _ first, loadFirst.2.1 _ first reachedSecond rfl second (.swap _ _ []),
    loadThird.2.2 third⟩

/-- A name with half of a pair in it is no text, so an object with such a member is not loaded,
although the member is none of the settings. -/
theorem load_lone_half :
    let text := "\x7b\"\\ud800\":null\x7d"
    let disk : Disk Unit := ⟨[], [(["c.json"], .text (Text.symbols text))]⟩
    ∃ cs entries, IsObject cs text ∧ IsBody entries cs ∧
      (∀ e ∈ entries, ∀ name, ¬ SpellsString name e.1) ∧ ∀ s, load disk "c.json" ≠ .ok s := by
  intro text disk
  have gap := isGap_nil
  have digit (value : Nat) (small : value < 16) := isHexDigit_hexDigit small
  have half : SpellsUnit 0xD800 ['d', '8', '0', '0'] :=
    .digits (digit 13 (by decide)) (digit 8 (by decide)) (digit 0 (by decide)) (digit 0 (by decide))
  have title : IsString ['"', '\\', 'u', 'd', '8', '0', '0', '"'] :=
    .quoted (.cons (.unit half) .nil)
  have laid : Separated SpellsEntry
      [(['"', '\\', 'u', 'd', '8', '0', '0', '"'], ['n', 'u', 'l', 'l'])] _ :=
    .one gap (.named gap gap) gap
  refine ⟨_, _, ⟨[], [], gap, gap, by decide⟩, ⟨?_, ?_, laid⟩, ?_, ?_⟩
  · simpa using title
  · simpa using IsValue.null
  · intro e member name spelled
    cases List.mem_singleton.1 member
    have read := text_spelled "" gap spelled [] false
    have failed : (Reader.text "" ⟨chars ['"', '\\', 'u', 'd', '8', '0', '0', '"'] [], false⟩).toOption
        = none := by decide
    rw [← chars_nil (chars _ _), read] at failed
    cases failed
  · intro s loaded
    have failed : (load disk "c.json").toOption = none := by decide
    rw [loaded] at failed
    cases failed

end

end ObsCatalog.Settings
