import ObsCatalog.Proofs.Storage.Path

/-! Components of paths.

Slashes that are repeated and single dots mean nothing inside a path, and double dots mean the
directory above. What remains are the components of the path. An ordinary name that is joined to a
directory adds one component of that name and leads right into the directory.
-/

set_option autoImplicit false

namespace ObsCatalog

namespace Path

variable {directory name path : String}

inductive Component where
  | root
  /-- A single dot at the start. -/
  | current
  | parent
  | normal (name : String)
  deriving DecidableEq, Repr

def Component.ofName? (name : String) : Option Component :=
  if name = "" ∨ name = "." then none
  else if name = ".." then some .parent
  else some (.normal name)

def start (path : String) : List Component :=
  if isAbsolute path then [.root]
  else if (names path).head? = some "." then [.current]
  else []

def components (path : String) : List Component :=
  start path ++ (names path).filterMap Component.ofName?

theorem names_of_plain (plain : '/' ∉ name.toList) : names name = [name] := by
  simp [names, pieces_of_no_slash plain]

theorem isAbsolute_of_plain (plain : '/' ∉ name.toList) : isAbsolute name = false := by
  unfold isAbsolute
  cases shape : name.toList with
  | nil => rfl
  | cons c rest =>
    have other : c ≠ '/' := fun same => plain (by simp [shape, same])
    simpa using other

theorem join_empty (plain : '/' ∉ name.toList) : join "" name = name := by
  have empty : isOpen "" = true := by decide
  simp [join, isAbsolute_of_plain plain, empty]

/-- The text of a joined path: a slash comes before the name, whether it was there or not. -/
theorem toList_join (plain : '/' ∉ name.toList) (named : directory ≠ "") :
    ∃ front rest, (rest = [] ∨ rest = ['/']) ∧ directory.toList = front ++ rest ∧
      (join directory name).toList = front ++ '/' :: name.toList := by
  have long : directory.toList ≠ [] := by simpa using named
  cases ends : isOpen directory with
  | false =>
    refine ⟨directory.toList, [], .inl rfl, (List.append_nil _).symm, ?_⟩
    simp [join, isAbsolute_of_plain plain, ends]
  | true =>
    have last : directory.toList.getLast? = some '/' := by
      simpa [isOpen, long] using ends
    obtain ⟨front, shape⟩ := List.getLast?_eq_some_iff.1 last
    refine ⟨front, ['/'], .inr rfl, shape, ?_⟩
    simp [join, isAbsolute_of_plain plain, ends, shape]

theorem isAbsolute_join (plain : '/' ∉ name.toList) (named : directory ≠ "") :
    isAbsolute (join directory name) = isAbsolute directory := by
  obtain ⟨front, rest, ends, split, joined⟩ := toList_join plain named
  unfold isAbsolute
  rw [split, joined]
  cases front with
  | cons c front => rfl
  | nil =>
    rcases ends with rfl | rfl
    · exact absurd split (by simpa using named)
    · rfl

/-- The names in a joined path: those of the directory, and the name at the end. -/
theorem names_join (plain : '/' ∉ name.toList) (named : directory ≠ "") :
    ∃ front rest, front ≠ [] ∧ (rest = [] ∨ rest = [""]) ∧ names directory = front ++ rest ∧
      names (join directory name) = front ++ [name] := by
  obtain ⟨front, rest, ends, split, joined⟩ := toList_join plain named
  refine ⟨(pieces front).map String.ofList, (if rest = [] then [] else [""]), ?_, ?_, ?_, ?_⟩
  · simpa using pieces_ne_nil front
  · rcases ends with rfl | rfl
    · exact .inl rfl
    · exact .inr rfl
  · rcases ends with rfl | rfl
    · simp [names, split]
    · simp [names, split, pieces_append_slash, pieces]
  · simp [names, joined, pieces_append_slash, pieces_of_no_slash plain]

/-- What a name adds to a directory. A single dot is left out, unless nothing stands before it. -/
def last (directory name : String) : List Component :=
  if name = "." then if directory = "" then [.current] else []
  else if name = ".." then [.parent]
  else [.normal name]

theorem last_eq_iff (directory name : String) :
    last directory name = [.normal name] ↔ name ≠ "." ∧ name ≠ ".." := by
  unfold last
  by_cases dot : name = "."
  · by_cases named : directory = "" <;> simp [dot, named]
  · by_cases dots : name = ".." <;> simp [dot, dots]

def nameOf : List Component → String
  | [.normal name] => name
  | [.parent] => ".."
  | _ => "."

theorem nameOf_last (directory name : String) : nameOf (last directory name) = name := by
  unfold last
  by_cases dot : name = "."
  · by_cases named : directory = "" <;> simp [dot, named, nameOf]
  · by_cases dots : name = ".." <;> simp [dot, dots, nameOf]

theorem last_injective {other : String} (same : last directory name = last directory other) :
    name = other := by
  rw [← nameOf_last directory name, same, nameOf_last]

theorem toList_ofName? (long : name ≠ "") (named : directory ≠ "") :
    (Component.ofName? name).toList = last directory name := by
  unfold Component.ofName? last
  by_cases dot : name = "."
  · simp [dot, named]
  · by_cases dots : name = ".." <;> simp [long, dot, dots]

/-- Joining a name to a directory adds at most one component. -/
theorem components_join (plain : '/' ∉ name.toList) (long : name ≠ "") (directory : String) :
    components (join directory name) = components directory ++ last directory name := by
  by_cases named : directory = ""
  · subst named
    -- The name is the whole path, so a dot at its start is one at the start of the path.
    have empty : components "" = [] := by decide +kernel
    rw [join_empty plain, empty, List.nil_append, components, start, isAbsolute_of_plain plain,
      names_of_plain plain]
    unfold last Component.ofName?
    by_cases dot : name = "."
    · simp [dot]
    · by_cases dots : name = ".." <;> simp [long, dot, dots]
  · obtain ⟨front, rest, filled, ends, whole, joined⟩ := names_join plain named
    have blank : rest.filterMap Component.ofName? = [] := by
      rcases ends with rfl | rfl
      · rfl
      · rfl
    have same : start (join directory name) = start directory := by
      obtain ⟨first, front, rfl⟩ := List.exists_cons_of_ne_nil filled
      simp [start, isAbsolute_join plain named, whole, joined]
    have final : [name].filterMap Component.ofName? = last directory name := by
      rw [← toList_ofName? long named]
      cases found : Component.ofName? name <;> simp [found]
    rw [components, components, same, whole, joined, List.filterMap_append, List.filterMap_append,
      blank, final, List.append_nil, List.append_assoc]

end Path

namespace Disk

variable {δ : Type} {d : Disk δ} {place : Place} {directory name path : String}

def origin (d : Disk δ) (path : String) : Place := if Path.isAbsolute path then [] else d.home

theorem walk_ordinary {here : Place} (long : name ≠ "") (dot : name ≠ ".") (dots : name ≠ "..")
    (reached : d.walk here [name] = .ok place) :
    d.get? here = some .directory ∧ place = here ++ [name] := by
  have found := directory_of_walk_cons reached
  refine ⟨found, ?_⟩
  simp only [Disk.walk, found, if_neg (not_or.2 ⟨long, dot⟩), if_neg dots] at reached
  split at reached
  · cases reached
  · exact (Except.ok.inj reached).symm

/-- A path that ends in an ordinary name leads right into where its directory leads. -/
theorem locate_join (plain : '/' ∉ name.toList) (long : name ≠ "") (dot : name ≠ ".")
    (dots : name ≠ "..") (reached : d.locate (Path.join directory name) = .ok place) :
    ∃ there, d.Follows (d.origin directory) directory.toList there ∧
      d.get? there = some .directory ∧ place = there ++ [name] := by
  obtain ⟨-, -, -, walked⟩ := locate_eq_ok_iff.1 reached
  by_cases named : directory = ""
  · subst named
    rw [Path.join_empty plain, Path.isAbsolute_of_plain plain, Path.names_of_plain plain] at walked
    obtain ⟨found, shape⟩ := walk_ordinary long dot dots walked
    exact ⟨d.home, follows_nil.2 ⟨found, rfl⟩, found, shape⟩
  · rw [Path.isAbsolute_join plain named] at walked
    obtain ⟨front, rest, -, ends, whole, joined⟩ := Path.names_join plain named
    rw [joined] at walked
    obtain ⟨there, before, last⟩ := walk_append.1 walked
    obtain ⟨found, shape⟩ := walk_ordinary long dot dots last
    refine ⟨there, ?_, found, shape⟩
    show d.walk (d.origin directory) (Path.names directory) = .ok there
    rw [whole]
    refine walk_append.2 ⟨there, before, ?_⟩
    rcases ends with rfl | rfl
    · rfl
    · exact (walk_blank (.inl rfl)).2 ⟨found, rfl⟩

end Disk

end ObsCatalog
