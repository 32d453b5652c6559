import ObsCatalog.CommandLine.Journal

/-! Steps of a command.

A step works on a disk, yields a result or stops the command, and tells lines of the
log in either case. What a step has done to the disk and told before it stops remains.
-/

set_option autoImplicit false

namespace ObsCatalog.CommandLine

inductive CommandFault where
  | settings (fault : SettingsFault)
  | catalog (fault : CatalogFault)
  | obsid (fault : ObsidFault)
  /-- The name of a file tells no observation. -/
  | fileName (name : String) (fault : ObsidFault)

namespace CommandFault

def message : CommandFault → String
  | .settings fault => fault.message
  | .catalog fault => fault.message
  | .obsid fault => fault.message
  | .fileName name _ => "Cannot read an observation from '" ++ name ++ "'"

/-- What lies behind the failure, the nearest cause first. -/
def causes : CommandFault → List String
  | .settings fault => fault.causes
  | .catalog fault => fault.causes
  | .obsid _ => []
  | .fileName _ fault => [fault.message]

/-- A text after a lead, with further lines moved in as far as the lead reaches. -/
def indented (lead text : String) : String :=
  let margin := '\n' :: List.replicate lead.length ' '
  lead ++ String.ofList (text.toList.flatMap fun c => if c = '\n' then margin else [c])

/-- Several causes are numbered from zero. -/
def causeLines : List String → List String
  | [cause] => [indented "    " cause]
  | causes => causes.mapIdx fun i cause => indented ("    " ++ Text.integerText i ++ ": ") cause

/-- The failure and what lies behind it, as it is shown to the user. -/
def report (f : CommandFault) : String :=
  let head := "Error: " ++ f.message
  match f.causes with
  | [] => head ++ "\n"
  | causes => head ++ "\n\nCaused by:\n" ++ "\n".intercalate (causeLines causes) ++ "\n"

end CommandFault

structure Execution (α : Type) where
  outcome : Except CommandFault α
  disk : CatalogDisk
  lines : List Line

def Step (α : Type) := CatalogDisk → Execution α

namespace Step

def yielding {α : Type} (a : α) : Step α := fun disk => ⟨.ok a, disk, []⟩

def stopping {α : Type} (f : CommandFault) : Step α := fun disk => ⟨.error f, disk, []⟩

/-- One step and then another, unless the first one stops the command. -/
def followedBy {α β : Type} (s : Step α) (next : α → Step β) : Step β := fun disk =>
  let first := s disk
  match first.outcome with
  | .error f => ⟨.error f, first.disk, first.lines⟩
  | .ok a =>
    let second := next a first.disk
    ⟨second.outcome, second.disk, first.lines ++ second.lines⟩

instance : Monad Step where
  pure := yielding
  bind := followedBy

def tell (l : Line) : Step Unit := fun disk => ⟨.ok (), disk, [l]⟩

def shownAt {α : Type} (level : LogLevel) (s : Step α) : Step α := fun disk =>
  let e := s disk
  { e with lines := e.lines.filter (·.level.isShownAt level) }

def of {α ε : Type} (fault : ε → CommandFault) : Except ε α → Step α
  | .ok a => yielding a
  | .error e => stopping (fault e)

/-- Perform an action on an open database. Tells the given lines first, then what
came of the action. -/
def perform {α : Type} (h : Handle) (before : List Line) (after : α → List Line)
    (action : Action α) : Step α := fun disk =>
  let (result, _, disk) := h.perform action disk
  match result with
  | .ok a => ⟨.ok a, disk, before ++ after a⟩
  | .error fault => ⟨.error (.catalog fault), disk, before ++ failureLines h.deployment fault⟩

end Step

end ObsCatalog.CommandLine
