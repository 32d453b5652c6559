/-! Paths.

A path is a text of names between slashes. Joining is textual: nothing is normalised,
and an absolute name replaces the directory that it is joined to. The parent of a
path leaves out its last name.
-/

set_option autoImplicit false

namespace ObsCatalog.Path

def isAbsolute (path : String) : Bool := path.toList.head? == some '/'

def isOpen (directory : String) : Bool :=
  directory.toList.isEmpty || directory.toList.getLast? == some '/'

def join (directory name : String) : String :=
  if isAbsolute name then name
  else if isOpen directory then directory ++ name
  else directory ++ "/" ++ name

/-- The pieces between slashes; empty ones are kept. -/
def pieces : List Char → List (List Char)
  | [] => [[]]
  | c :: rest =>
    if c = '/' then [] :: pieces rest
    else
      match pieces rest with
      | [] => [[c]]
      | piece :: more => (c :: piece) :: more

theorem pieces_ne_nil (cs : List Char) : pieces cs ≠ [] := by
  cases cs with
  | nil => simp [pieces]
  | cons c rest =>
    rw [pieces]
    split
    · simp
    · split <;> simp

theorem pieces_of_no_slash {cs : List Char} (plain : '/' ∉ cs) : pieces cs = [cs] := by
  induction cs with
  | nil => rfl
  | cons c rest ih =>
    have head : c ≠ '/' := fun same => plain (by simp [same])
    have tail : '/' ∉ rest := fun member => plain (List.mem_cons_of_mem c member)
    rw [pieces, if_neg head, ih tail]

def names (path : String) : List String := (pieces path.toList).map String.ofList

/-- A reversed path without slashes and single dots at its end. The slash of the root
and a dot that stands alone remain. -/
def trimReversed : List Char → List Char
  | ['/'] => ['/']
  | '/' :: rest => trimReversed rest
  | '.' :: '/' :: rest => trimReversed ('/' :: rest)
  | cs => cs

/-- The path without its last name; the root and the empty path have no parent. -/
def parent? (path : String) : Option String :=
  match trimReversed path.toList.reverse with
  | [] => none
  | ['/'] => none
  | trimmed => some (String.ofList (trimReversed (trimmed.dropWhile (· != '/'))).reverse)

end ObsCatalog.Path
