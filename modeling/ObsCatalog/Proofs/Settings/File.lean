import ObsCatalog.Proofs.Json.Members
import ObsCatalog.Proofs.Storage.Disk
import ObsCatalog.Settings.File

/-! Settings read back.

The text of settings is a document of their JSON value, and every document of this value
is read as the settings. So saving settings and loading them again loses nothing.
-/

set_option autoImplicit false

namespace ObsCatalog

open Json Reader

theorem LogLevel.reader_accepts (l : LogLevel) : Accepts LogLevel.reader l.json l := by
  have named : Accepts readName (.text l.name) l := by
    refine (text_accepts _ _).bind fun c => ?_
    rw [ofName?_name]
    rfl
  intro gap cs blank spelled p rest ends
  obtain ⟨q, read⟩ := named [] cs isGap_nil spelled true rest ends
  refine ⟨q, ?_⟩
  rw [List.nil_append] at read
  cases spelled with | text spelled =>
  cases spelled with | quoted content =>
  rw [List.cons_append, chars_cons] at read
  rw [List.cons_append, chars_append, chars_cons, LogLevel.reader,
    bind_ok (valueStart_gap blank (by decide) _ p)]
  exact read

namespace Locations

theorem readDirectory_accepts (directory : Option String) :
    Accepts readDirectory (match directory with | some d => .text d | none => .null) directory := by
  cases directory with
  | none => exact optional_null _
  | some d => exact optional_text (text_accepts _ d)

theorem readMember_fills (l : Locations) :
    Fills readMember ⟨none, none, none, none⟩
      [("data_dir", match l.directory with | some d => .text d | none => .null),
        ("librarian_file", .text l.librarianFile), ("mc_file", .text l.monitorControlFile),
        ("create_if_missing", .bool l.createIfMissing)]
      ⟨some l.directory, some l.librarianFile, some l.monitorControlFile,
        some l.createIfMissing⟩ :=
  .more ((once_accepts (readDirectory_accepts l.directory) "data_dir").bind fun _ => rfl) <|
  .more ((once_accepts (text_accepts "a string" l.librarianFile) "librarian_file").bind
    fun _ => rfl) <|
  .more ((once_accepts (text_accepts "a string" l.monitorControlFile) "mc_file").bind
    fun _ => rfl) <|
  .more ((once_accepts (bool_accepts l.createIfMissing) "create_if_missing").bind fun _ => rfl) <|
  .none _

theorem reader_accepts (l : Locations) : Accepts reader l.json l := by
  refine record_accepts fun cs spelled rest p => ?_
  rw [readObject, bind_ok (members_fills l.readMember_fills spelled rest p)]
  rfl

end Locations

namespace Settings

theorem readMember_fills (s : Settings) :
    Fills readMember ⟨none, none⟩
      [("database", s.locations.json), ("log_level", s.logLevel.json)]
      ⟨some s.locations, some s.logLevel⟩ :=
  .more ((once_accepts s.locations.reader_accepts "database").bind fun _ => rfl) <|
  .more ((once_accepts s.logLevel.reader_accepts "log_level").bind fun _ => rfl) <|
  .none _

theorem reader_accepts (s : Settings) : Accepts reader s.json s := by
  refine record_accepts fun cs spelled rest p => ?_
  rw [readObject, bind_ok (members_fills s.readMember_fills spelled rest p)]
  rfl

theorem read_isDocument (s : Settings) {text : String} (holds : IsDocument s.json text) :
    read (Text.symbols text) = .ok s :=
  document_accepts s.reader_accepts holds

theorem isDocument_write (s : Settings) : IsDocument s.json s.write := isDocument_pretty s.json

variable {δ : Type} {disk : Disk δ} {path : String} {place : Place}

theorem save_eq (s : Settings) (reached : disk.locate path = .ok place)
    (writable : disk.get? place ≠ some .directory) :
    s.save disk path = .ok (disk.put place (.text (Text.symbols s.write))) := by
  have written : disk.writeText path (Text.symbols s.write) =
      .ok (disk.put place (.text (Text.symbols s.write))) := by
    simp only [Disk.writeText, reached, bind, Except.bind]
    rfl
  rw [save, written]

theorem load_text {content : List Text.Symbol} (reached : disk.locate path = .ok place)
    (found : disk.get? place = some (.text content)) {s : Settings}
    (reads : read content = .ok s) : load disk path = .ok s := by
  simp only [load, Disk.find_eq reached, found, Entry.content, reads]

theorem load_error {content : List Text.Symbol} (reached : disk.locate path = .ok place)
    (found : disk.get? place = some (.text content)) {fault : Json.Fault}
    (failed : read content = .error fault) :
    load disk path = .error (.unreadable path (fault.message content)) := by
  simp only [load, Disk.find_eq reached, found, Entry.content, failed]

/-- Loading settings leaves the disk as it is, unless the standard settings have been written
where there was nothing. -/
theorem of_loadOrCreate {s : Settings} {written : Disk δ}
    (loaded : loadOrCreate disk path = .ok (s, written)) :
    written = disk ∨ s = standard ∧ ∃ place, disk.get? place = none ∧
      written = disk.put place (.text (Text.symbols standard.write)) := by
  unfold loadOrCreate at loaded
  split at loaded
  · cases found : load disk path with
    | error fault => simp [found, Except.map] at loaded
    | ok known =>
      simp only [found, Except.map, Except.ok.injEq, Prod.mk.injEq] at loaded
      exact .inl loaded.2.symm
  next missing =>
    refine .inr ?_
    cases reached : disk.locate path with
    | error fault =>
      simp [save, Disk.writeText, reached, bind, Except.bind, Except.map] at loaded
    | ok place =>
      have absent : disk.get? place = none := by
        cases found : disk.get? place with
        | none => rfl
        | some entry =>
          simp [Disk.hasEntry, Disk.find_eq reached, found, Except.isOk, Except.toBool] at missing
      rw [save_eq standard reached (by simp [absent])] at loaded
      simp only [Except.map, Except.ok.injEq, Prod.mk.injEq] at loaded
      exact ⟨loaded.1.symm, place, absent, loaded.2.symm⟩

/-- Settings that are saved where a file may be written are loaded as they were, whatever
their texts hold. The file then holds a JSON text of them. -/
theorem save_load (s : Settings) (reached : disk.locate path = .ok place)
    (writable : disk.get? place ≠ some .directory) :
    ∃ saved, s.save disk path = .ok saved ∧ load saved path = .ok s ∧
      saved.get? place = some (.text (Text.symbols s.write)) ∧ IsDocument s.json s.write := by
  have stored := disk.get?_put_self (Disk.below_of_get?_ne writable)
    (.text (Text.symbols s.write))
  have again := (Disk.keeps_put writable (.text (Text.symbols s.write))).locate reached
  exact ⟨_, s.save_eq reached writable,
    load_text again stored (s.read_isDocument s.isDocument_write), stored, s.isDocument_write⟩

/-- Settings with quotes, backslashes, control characters and other scripts, saved in the
working directory. -/
theorem save_load_escaped :
    let s : Settings := ⟨⟨some "C:\\\"데이터\"", "a\x00\x1f\n.db", "\t/é\x7f😀", false⟩, .trace⟩
    let disk : Disk Unit := ⟨["tmp"], [(["tmp"], .directory)]⟩
    ∃ saved, s.save disk "settings.json" = .ok saved ∧ load saved "settings.json" = .ok s ∧
      saved.get? ["tmp", "settings.json"] = some (.text (Text.symbols s.write)) ∧
      IsDocument s.json s.write := by
  intro s disk
  have reached : disk.locate "settings.json" = .ok ["tmp", "settings.json"] := by decide
  refine save_load s reached ?_
  intro found
  cases found

end Settings

end ObsCatalog
