import ObsCatalog.Proofs.Storage.Disk

/-! Parents of paths.

Following a path that ends in a name goes through the directory that the rest of it leads to.
Slashes and single dots at the end of a path make no difference to where it leads, so its
parent leads to that directory, and there is none to be made.
-/

set_option autoImplicit false

namespace ObsCatalog

namespace Path

theorem pieces_append_slash (cs rest : List Char) :
    pieces (cs ++ '/' :: rest) = pieces cs ++ pieces rest := by
  induction cs with
  | nil => simp [pieces]
  | cons c cs ih =>
    by_cases slash : c = '/'
    · simp [pieces, slash, ih]
    · obtain ⟨piece, more, shape⟩ := List.exists_cons_of_ne_nil (pieces_ne_nil cs)
      simp [pieces, slash, ih, shape]

theorem trimReversed_suffix (cs : List Char) : trimReversed cs <:+ cs := by
  fun_induction trimReversed cs with
  | case1 => exact List.suffix_rfl
  | case2 rest _ ih => exact ih.trans (List.suffix_cons '/' rest)
  | case3 rest ih => exact ih.trans (List.suffix_cons '.' ('/' :: rest))
  | case4 => exact List.suffix_rfl

theorem trimReversed_ne_nil {cs : List Char} (long : cs ≠ []) : trimReversed cs ≠ [] := by
  fun_induction trimReversed cs with
  | case1 => exact long
  | case2 rest more ih => exact ih more
  | case3 rest ih => exact ih (List.cons_ne_nil _ _)
  | case4 => exact long

end Path

namespace Disk

variable {δ : Type} {d : Disk δ} {here place : Place} {path : String}

theorem walk_append {front back : List String} :
    d.walk here (front ++ back) = .ok place ↔
      ∃ middle, d.walk here front = .ok middle ∧ d.walk middle back = .ok place := by
  induction front generalizing here with
  | nil => simp [Disk.walk]
  | cons name front ih =>
    rw [List.cons_append, Disk.walk, Disk.walk]
    cases d.get? here with
    | none => simp
    | some entry =>
      cases entry with
      | text content => simp
      | database data => simp
      | directory =>
        simp only
        split
        · exact ih
        split
        · exact ih
        split
        · simp
        · exact ih

theorem directory_of_walk_cons {name : String} {rest : List String}
    (reached : d.walk here (name :: rest) = .ok place) : d.get? here = some .directory := by
  rw [Disk.walk] at reached
  split at reached
  · cases reached
  · cases reached
  · cases reached
  · next found => exact found

theorem walk_blank {name : String} (blank : name = "" ∨ name = ".") :
    d.walk here [name] = .ok place ↔ d.get? here = some .directory ∧ place = here := by
  constructor
  · intro reached
    have found := directory_of_walk_cons reached
    simp only [Disk.walk, found, if_pos blank] at reached
    cases reached
    exact ⟨found, rfl⟩
  · rintro ⟨found, rfl⟩
    simp only [Disk.walk, found, if_pos blank]

def Follows (d : Disk δ) (here : Place) (cs : List Char) (place : Place) : Prop :=
  d.walk here ((Path.pieces cs).map String.ofList) = .ok place

theorem directory_of_follows {cs : List Char} (follows : d.Follows here cs place) :
    d.get? here = some .directory := by
  obtain ⟨piece, more, shape⟩ := List.exists_cons_of_ne_nil (Path.pieces_ne_nil cs)
  rw [Follows, shape] at follows
  exact directory_of_walk_cons follows

theorem follows_append_slash {cs rest : List Char} :
    d.Follows here (cs ++ '/' :: rest) place ↔
      ∃ middle, d.Follows here cs middle ∧ d.Follows middle rest place := by
  rw [Follows, Path.pieces_append_slash, List.map_append]
  exact walk_append

theorem follows_nil : d.Follows here [] place ↔ d.get? here = some .directory ∧ place = here :=
  walk_blank (.inl rfl)

theorem follows_dot : d.Follows here ['.'] place ↔ d.get? here = some .directory ∧ place = here :=
  walk_blank (.inr rfl)

theorem Follows.trim {cs : List Char} (follows : d.Follows here cs.reverse place) :
    d.Follows here (Path.trimReversed cs).reverse place := by
  fun_induction Path.trimReversed cs with
  | case1 => exact follows
  | case2 rest _ ih =>
    rw [List.reverse_cons, follows_append_slash] at follows
    obtain ⟨middle, reached, last⟩ := follows
    obtain ⟨-, rfl⟩ := follows_nil.1 last
    exact ih reached
  | case3 rest ih =>
    rw [List.reverse_cons, List.reverse_cons, List.append_assoc] at follows
    obtain ⟨middle, reached, last⟩ := follows_append_slash.1 follows
    obtain ⟨found, rfl⟩ := follows_dot.1 last
    refine ih ?_
    rw [List.reverse_cons]
    exact follows_append_slash.2 ⟨_, reached, follows_nil.2 ⟨found, rfl⟩⟩
  | case4 => exact follows

/-- A part of a path that can be followed is itself a path. -/
theorem locate_of_prefix {front : List Char} (reached : d.locate path = .ok place)
    (part : front <+: path.toList) (named : front ≠ [])
    (follows : d.Follows (if Path.isAbsolute path then [] else d.home) front here) :
    d.locate (String.ofList front) = .ok here := by
  obtain ⟨-, clean, short, -⟩ := locate_eq_ok_iff.1 reached
  obtain ⟨back, whole⟩ := part
  have split : path = String.ofList front ++ String.ofList back := by
    rw [← String.ofList_append, whole, String.ofList_toList]
  have absolute : Path.isAbsolute (String.ofList front) = Path.isAbsolute path := by
    obtain ⟨c, more, rfl⟩ := List.exists_cons_of_ne_nil named
    simp [Path.isAbsolute, ← whole]
  refine locate_eq_ok_iff.2 ⟨fun empty => named (by simpa using congrArg String.toList empty),
    ?_, ?_, ?_⟩
  · rw [← whole] at clean
    simp only [List.contains_eq_mem, List.mem_append, decide_eq_false_iff_not, not_or] at clean
    simp [clean.1]
  · rw [split, String.utf8ByteSize_append] at short
    omega
  · rw [absolute, Path.names, String.toList_ofList]
    exact follows

/-- The path without slashes and dots at its end leads where it does. -/
theorem locate_trim (reached : d.locate path = .ok place) :
    d.locate (String.ofList (Path.trimReversed path.toList.reverse).reverse) = .ok place := by
  obtain ⟨named, -, -, walked⟩ := locate_eq_ok_iff.1 reached
  have long : path.toList.reverse ≠ [] := by simpa using named
  refine locate_of_prefix reached ?_ ?_ (Follows.trim ?_)
  · rw [← List.reverse_suffix, List.reverse_reverse]
    exact Path.trimReversed_suffix _
  · simpa using Path.trimReversed_ne_nil long
  · rw [List.reverse_reverse]
    exact walked

theorem locate_parent {directory : String} (reached : d.locate path = .ok place)
    (parent : Path.parent? path = some directory) (named : directory ≠ "") :
    ∃ there, d.locate directory = .ok there ∧ d.get? there = some .directory := by
  obtain ⟨-, -, -, walked⟩ := locate_eq_ok_iff.1 reached
  obtain ⟨trimmed, shape⟩ : ∃ cs, cs = Path.trimReversed path.toList.reverse := ⟨_, rfl⟩
  have part : trimmed.reverse <+: path.toList := by
    rw [shape, ← List.reverse_suffix, List.reverse_reverse]
    exact Path.trimReversed_suffix _
  have follows : d.Follows (if Path.isAbsolute path then [] else d.home) trimmed.reverse place := by
    rw [shape]
    refine Follows.trim ?_
    rw [List.reverse_reverse]
    exact walked
  -- The last name comes first in the reversed path, and a slash comes after it.
  obtain ⟨above, same⟩ : ∃ cs, cs = trimmed.dropWhile (· != '/') := ⟨_, rfl⟩
  have directoryEq : directory = String.ofList (Path.trimReversed above).reverse := by
    unfold Path.parent? at parent
    rw [← shape] at parent
    split at parent
    · cases parent
    · cases parent
    · rw [same]
      exact (Option.some.inj parent).symm
  have suffix : above <:+ trimmed := same ▸ List.dropWhile_suffix _
  obtain ⟨name, whole⟩ := suffix
  cases above with
  | nil => exact absurd directoryEq named
  | cons c rest =>
    have slash : c = '/' := by
      have head := List.head?_dropWhile_not (· != '/') trimmed
      rw [← same] at head
      simpa using head
    subst slash
    rw [← whole, List.reverse_append, List.reverse_cons, List.append_assoc] at follows
    obtain ⟨there, reachedThere, last⟩ := follows_append_slash.1 follows
    have found := directory_of_follows last
    refine ⟨there, ?_, found⟩
    rw [directoryEq]
    refine locate_of_prefix reached (.trans ?_ part) ?_ (Follows.trim ?_)
    · rw [List.reverse_prefix]
      exact (Path.trimReversed_suffix _).trans ⟨name, whole⟩
    · simpa using Path.trimReversed_ne_nil (List.cons_ne_nil _ _)
    · rw [List.reverse_cons]
      exact follows_append_slash.2 ⟨there, reachedThere, follows_nil.2 ⟨found, rfl⟩⟩

theorem makeDirectories_of_directory (reached : d.locate path = .ok place)
    (found : d.get? place = some .directory) : d.makeDirectories path = .ok d := by
  have named : path ≠ "" := (locate_eq_ok_iff.1 reached).1
  have refused : d.makeDirectory path = .error .alreadyExists := by
    simp only [makeDirectory, locate_trim reached, found, bind, Except.bind]
    rfl
  have present : d.hasDirectory path = true := by
    simp only [hasDirectory, find_eq reached, found]
  unfold makeDirectories makeDirectoriesFrom
  simp only [if_neg named, refused, present, if_true]

theorem makeDirectories_parent {directory : String} (reached : d.locate path = .ok place)
    (parent : Path.parent? path = some directory) : d.makeDirectories directory = .ok d := by
  by_cases named : directory = ""
  · unfold makeDirectories makeDirectoriesFrom
    rw [if_pos named]
  · obtain ⟨there, reachedThere, found⟩ := locate_parent reached parent named
    exact makeDirectories_of_directory reachedThere found

end Disk

end ObsCatalog
