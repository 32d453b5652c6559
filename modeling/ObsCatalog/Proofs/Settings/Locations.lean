import ObsCatalog.Settings.Basic
import ObsCatalog.Proofs.Storage.Component

/-! Paths of database files.

A name that is valid has no separators in it, so it adds one component at most to the directory of
the files. It adds an ordinary one unless it is a single dot or a double one, which are valid names
too but lead to the directory itself or out of it. The files of the deployments have different
paths in any case.
-/

set_option autoImplicit false

namespace ObsCatalog.Locations

open ObsCatalog.Path (Component components)

variable {l : Locations} {d : Deployment} {name directory : String} {dataHome : Option String}

theorem checkName_eq_ok_iff : checkName d name = .ok () ↔
    Text.isAllBlank name = false ∧ ∀ c ∈ name.toList, isSeparator c = false := by
  unfold checkName
  cases blank : Text.isAllBlank name with
  | true => simp
  | false =>
    cases separated : name.toList.any isSeparator with
    | true =>
      obtain ⟨c, member, separates⟩ := List.any_eq_true.1 separated
      simp only [Bool.false_eq_true, if_false, if_true, true_and, reduceCtorEq, false_iff]
      exact fun none => by simp [none c member] at separates
    | false => simpa using separated

theorem validate_eq_ok_iff : l.validate = .ok () ↔
    (∀ d, checkName d (l.fileName d) = .ok ()) ∧ l.librarianFile ≠ l.monitorControlFile := by
  unfold validate
  cases librarian : checkName .librarian l.librarianFile with
  | error fault =>
    refine ⟨nofun, fun ⟨names, _⟩ => ?_⟩
    have known : checkName .librarian l.librarianFile = .ok () := names .librarian
    rw [librarian] at known
    cases known
  | ok _ =>
    cases monitorControl : checkName .monitorControl l.monitorControlFile with
    | error fault =>
      refine ⟨nofun, fun ⟨names, _⟩ => ?_⟩
      have known : checkName .monitorControl l.monitorControlFile = .ok () := names .monitorControl
      rw [monitorControl] at known
      cases known
    | ok _ =>
      have names (d : Deployment) : checkName d (l.fileName d) = .ok () := by
        cases d with
        | librarian => exact librarian
        | monitorControl => exact monitorControl
      simp only [names, implies_true, true_and, bind, Except.bind]
      by_cases same : l.librarianFile = l.monitorControlFile
      · simp [same, throw, throwThe, MonadExceptOf.throw]
      · simp [same, pure, Except.pure]

/-- A valid name is not empty and has no slash in it. -/
theorem plain_of_validate (valid : l.validate = .ok ()) (d : Deployment) :
    '/' ∉ (l.fileName d).toList ∧ l.fileName d ≠ "" := by
  obtain ⟨names, -⟩ := validate_eq_ok_iff.1 valid
  obtain ⟨shown, plain⟩ := checkName_eq_ok_iff.1 (names d)
  constructor
  · intro slash
    have separates : isSeparator '/' = true := by decide
    rw [plain _ slash] at separates
    cases separates
  · intro empty
    rw [empty] at shown
    cases shown

theorem filePath_eq (resolved : l.resolveDirectory dataHome = .ok directory) (d : Deployment) :
    l.filePath dataHome d = .ok (Path.join directory (l.fileName d)) := by
  simp only [filePath, resolved, bind, Except.bind]
  rfl

/-- Where the settings are valid, the path of each file is that of the directory with one ordinary
component more, which is the name of the file, and leads into the place of the directory, unless
the name is a single dot or a double one. The files of the deployments have different paths. -/
theorem filePath_ordinary (valid : l.validate = .ok ())
    (resolved : l.resolveDirectory dataHome = .ok directory) :
    ∃ path : Deployment → String, (∀ d, l.filePath dataHome d = .ok (path d)) ∧
      (∀ d, components (path d) = components directory ++ [.normal (l.fileName d)] ↔
        l.fileName d ≠ "." ∧ l.fileName d ≠ "..") ∧
      (∀ d, l.fileName d ≠ "." → l.fileName d ≠ ".." → ∀ {δ : Type} (disk : Disk δ) {place : Place},
        disk.locate (path d) = .ok place → ∃ there,
          disk.Follows (disk.origin directory) directory.toList there ∧
            disk.get? there = some .directory ∧ place = there ++ [l.fileName d]) ∧
      components (path .librarian) ≠ components (path .monitorControl) := by
  have named (d : Deployment) := plain_of_validate valid d
  refine ⟨fun d => Path.join directory (l.fileName d), filePath_eq resolved, fun d => ?_,
    fun d dot dots _ disk place reached => ?_, fun same => ?_⟩
  · rw [Path.components_join (named d).1 (named d).2, List.append_cancel_left_eq]
    exact Path.last_eq_iff directory (l.fileName d)
  · exact Disk.locate_join (named d).1 (named d).2 dot dots reached
  · obtain ⟨-, different⟩ := validate_eq_ok_iff.1 valid
    rw [Path.components_join (named .librarian).1 (named .librarian).2,
      Path.components_join (named .monitorControl).1 (named .monitorControl).2] at same
    exact different (Path.last_injective (List.append_cancel_left same))

theorem filePath_ordinary_absolute :
    ∃ path : Deployment → String,
      (∀ d, (⟨some "/data", "hl.db", "mc.db", true⟩ : Locations).filePath none d = .ok (path d)) ∧
      components (path .librarian) = [.root, .normal "data", .normal "hl.db"] ∧
      components (path .librarian) ≠ components (path .monitorControl) := by
  have valid : (⟨some "/data", "hl.db", "mc.db", true⟩ : Locations).validate = .ok () :=
    validate_eq_ok_iff.2 ⟨fun d => by cases d <;> rfl, by decide⟩
  have resolved : (⟨some "/data", "hl.db", "mc.db", true⟩ : Locations).resolveDirectory none =
      .ok "/data" := rfl
  obtain ⟨path, named, ordinary, -, different⟩ := filePath_ordinary valid resolved
  have directory : components "/data" = [.root, .normal "data"] := by decide +kernel
  have shape := (ordinary .librarian).2 (by decide)
  rw [directory] at shape
  exact ⟨path, named, shape, different⟩

/-- Dots are valid names. A double one leads out of the directory, and a single one to the
directory itself. -/
theorem validate_admits_dots :
    (⟨some "/data", "..", ".", true⟩ : Locations).validate = .ok () ∧
    (⟨some "/data", "..", ".", true⟩ : Locations).filePath none .librarian = .ok "/data/.." ∧
    components "/data/.." = [.root, .normal "data", .parent] ∧
    (⟨[], [(["data"], .directory)]⟩ : Disk Unit).locate "/data/.." = .ok [] ∧
    (⟨some "/data", "..", ".", true⟩ : Locations).filePath none .monitorControl = .ok "/data/." ∧
    components "/data/." = components "/data" ∧
    (⟨[], [(["data"], .directory)]⟩ : Disk Unit).locate "/data/." = .ok ["data"] := by
  have resolved : (⟨some "/data", "..", ".", true⟩ : Locations).resolveDirectory none =
      .ok "/data" := rfl
  have outside : Path.join "/data" ".." = "/data/.." := by decide +kernel
  have inside : Path.join "/data" "." = "/data/." := by decide +kernel
  have above : Path.names "/data/.." = ["", "data", ".."] := by decide +kernel
  have here : Path.names "/data/." = ["", "data", "."] := by decide +kernel
  refine ⟨validate_eq_ok_iff.2 ⟨fun d => by cases d <;> rfl, by decide⟩,
    outside ▸ filePath_eq resolved .librarian, by decide +kernel, ?_,
    inside ▸ filePath_eq resolved .monitorControl, by decide +kernel, ?_⟩
  · refine Disk.locate_eq_ok_iff.2 ⟨by decide, by decide, by decide +kernel, ?_⟩
    rw [above]
    rfl
  · refine Disk.locate_eq_ok_iff.2 ⟨by decide, by decide, by decide +kernel, ?_⟩
    rw [here]
    rfl

end ObsCatalog.Locations
