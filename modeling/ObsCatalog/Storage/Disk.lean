import ObsCatalog.Storage.Path
import ObsCatalog.Text.Digits
import ObsCatalog.Text.Symbol

/-! A tree of directories and files.

A file holds text or a database. Paths are followed name by name from the root or
from the working directory, and each name but the last has to lead to a directory.
Operations that fail leave the tree as it was.
-/

set_option autoImplicit false

namespace ObsCatalog

inductive DiskFault where
  | notFound
  | alreadyExists
  | notDirectory
  | isDirectory
  | nameTooLong
  | zeroInName
  deriving DecidableEq, Repr

def DiskFault.message : DiskFault → String
  | .notFound => "No such file or directory (os error 2)"
  | .alreadyExists => "File exists (os error 17)"
  | .notDirectory => "Not a directory (os error 20)"
  | .isDirectory => "Is a directory (os error 21)"
  | .nameTooLong => "File name too long (os error 36)"
  | .zeroInName => "file name contained an unexpected NUL byte"

/-- What a name leads to; a database is a value of type `δ`. -/
inductive Entry (δ : Type) where
  | directory
  | text (content : List Text.Symbol)
  | database (data : δ)

def databaseHeading : String := "observation-catalog-1"

namespace Entry

def content {δ : Type} : Entry δ → Except DiskFault (List Text.Symbol)
  | .directory => .error .isDirectory
  | .text content => .ok content
  | .database _ => .ok (Text.symbols databaseHeading)

end Entry

abbrev Place := List String

structure Disk (δ : Type) where
  home : Place
  entries : List (Place × Entry δ)

namespace Disk

variable {δ : Type}

/-- The entry at a place. The root is always a directory. -/
def get? (d : Disk δ) (place : Place) : Option (Entry δ) :=
  if place = [] then some .directory
  else (d.entries.find? fun e => e.1 = place).map (·.2)

def put (d : Disk δ) (place : Place) (entry : Entry δ) : Disk δ :=
  { d with entries := (place, entry) :: d.entries.filter (·.1 ≠ place) }

def erase (d : Disk δ) (place : Place) : Disk δ :=
  { d with entries := d.entries.filter (·.1 ≠ place) }

theorem get?_put_self (d : Disk δ) {place : Place} (below : place ≠ []) (entry : Entry δ) :
    (d.put place entry).get? place = some entry := by
  simp [put, get?, below]

theorem get?_put_other (d : Disk δ) {place other : Place} (differs : other ≠ place)
    (entry : Entry δ) : (d.put place entry).get? other = d.get? other := by
  have skip : (decide (place = other)) = false := by simpa using differs.symm
  simp only [put, get?, List.find?_cons, skip]
  have same : (d.entries.filter fun e => decide (e.1 ≠ place)).find? (fun e => decide (e.1 = other))
      = d.entries.find? fun e => decide (e.1 = other) := by
    rw [List.find?_filter]
    congr 1
    funext e
    by_cases here : e.1 = other
    · simp [here, differs]
    · simp [here]
  rw [same]

/-- Follow names from a place. All but the last must be those of directories. -/
def walk (d : Disk δ) : Place → List String → Except DiskFault Place
  | here, [] => .ok here
  | here, name :: rest =>
    match d.get? here with
    | none => .error .notFound
    | some (.text _) => .error .notDirectory
    | some (.database _) => .error .notDirectory
    | some .directory =>
      if name = "" ∨ name = "." then d.walk here rest
      else if name = ".." then d.walk here.dropLast rest
      else if 255 < name.utf8ByteSize then .error .nameTooLong
      else d.walk (here ++ [name]) rest

/-- The place that a path leads to, which need not have an entry. -/
def locate (d : Disk δ) (path : String) : Except DiskFault Place :=
  if path = "" then .error .notFound
  else if path.toList.contains '\x00' then .error .zeroInName
  else if 4096 ≤ path.utf8ByteSize then .error .nameTooLong
  else d.walk (if Path.isAbsolute path then [] else d.home) (Path.names path)

def find (d : Disk δ) (path : String) : Except DiskFault (Place × Entry δ) := do
  let place ← d.locate path
  match d.get? place with
  | some entry => pure (place, entry)
  | none => throw .notFound

def hasEntry (d : Disk δ) (path : String) : Bool := (d.find path).isOk

def hasDirectory (d : Disk δ) (path : String) : Bool :=
  match d.find path with
  | .ok (_, .directory) => true
  | _ => false

def database? (d : Disk δ) (path : String) : Option δ :=
  match d.find path with
  | .ok (_, .database data) => some data
  | _ => none

def writeText (d : Disk δ) (path : String) (content : List Text.Symbol) :
    Except DiskFault (Disk δ) := do
  let place ← d.locate path
  match d.get? place with
  | some .directory => throw .isDirectory
  | _ => pure (d.put place (.text content))

def writeDatabase (d : Disk δ) (path : String) (data : δ) : Disk δ :=
  match d.locate path with
  | .ok place => d.put place (.database data)
  | .error _ => d

def makeDirectory (d : Disk δ) (path : String) : Except DiskFault (Disk δ) := do
  let trimmed := String.ofList (Path.trimReversed path.toList.reverse).reverse
  let place ← d.locate trimmed
  match d.get? place with
  | some _ => throw .alreadyExists
  | none => pure (d.put place .directory)

/-- Make a directory and, as far as they are missing, those above it. Each step up
shortens the path, so its length bounds the steps. -/
def makeDirectoriesFrom : Nat → Disk δ → String → Except DiskFault (Disk δ)
  | steps, d, path =>
    if path = "" then .ok d
    else
      match d.makeDirectory path with
      | .ok d => .ok d
      | .error .notFound =>
        match steps, Path.parent? path with
        | steps + 1, some parent =>
          match makeDirectoriesFrom steps d parent with
          | .error fault => .error fault
          | .ok d =>
            match d.makeDirectory path with
            | .ok d => .ok d
            | .error fault => if d.hasDirectory path then .ok d else .error fault
        | _, _ => .error .notFound
      | .error fault => if d.hasDirectory path then .ok d else .error fault

def makeDirectories (d : Disk δ) (path : String) : Except DiskFault (Disk δ) :=
  makeDirectoriesFrom path.length d path

def remove (d : Disk δ) (path : String) : Except DiskFault (Disk δ) := do
  match ← d.find path with
  | (_, .directory) => throw .isDirectory
  | (place, _) => pure (d.erase place)

end Disk

end ObsCatalog
