import ObsCatalog.Json.Value

/-! Deployments.

Two deployments keep the same kinds of records. They differ in who chooses the ids
of observations: the caller or the database.
-/

set_option autoImplicit false

namespace ObsCatalog

inductive IdPolicy where
  | assigned
  | generated
  deriving DecidableEq, Repr

inductive Deployment where
  | librarian
  | monitorControl
  deriving DecidableEq, Repr

namespace Deployment

def name : Deployment → String
  | .librarian => "librarian"
  | .monitorControl => "mc"

theorem name_injective {a b : Deployment} (same : a.name = b.name) : a = b := by
  cases a <;> cases b <;> first | rfl | exact absurd same (by decide)

def idPolicy : Deployment → IdPolicy
  | .librarian => .assigned
  | .monitorControl => .generated

/-- The deployment that a name or an alias denotes; the case of letters is ignored. -/
def ofName? (text : String) : Option Deployment :=
  match String.ofList (text.toList.map Char.toLower) with
  | "librarian" | "hl" => some .librarian
  | "mc" | "m&c" => some .monitorControl
  | _ => none

def json (d : Deployment) : Json := .text d.name

def unknownMessage (text : String) : String := "Invalid database name: " ++ text

end Deployment

end ObsCatalog
