import ObsCatalog.CommandLine.Run
import ObsCatalog.Proofs.Catalog.Operation
import ObsCatalog.Proofs.Record.Printed
import ObsCatalog.Proofs.Record.Source

/-! What a text tells of the result of an operation.

A text tells a record if it is a JSON document of an object with the fields of the record, and
tells several records if it is a document of the array of such objects. This says nothing of how
commands come to print. What they print is shown to be of this kind.
-/

set_option autoImplicit false

namespace ObsCatalog

open CommandLine (printed)

namespace Json

variable {α : Type} {isObject : α → Json → Prop}

/-- A text is a document of a value, for which there is a condition. -/
def Tells (isObject : α → Json → Prop) (a : α) (text : String) : Prop :=
  ∃ j, isObject a j ∧ IsDocument j text

/-- A text is a document of an array of values, one after the other. -/
def TellsAll (isObject : α → Json → Prop) (as : List α) (text : String) : Prop :=
  ∃ items, List.Forall₂ isObject as items ∧ IsDocument (.array items) text

theorem isDocument_printed (j : Json) : IsDocument j (printed j) := by
  obtain ⟨before, cs, after, first, spelled, last, text⟩ := isDocument_pretty j
  have lineBreak : IsGap ['\n'] := fun c member => .inr (.inl (List.mem_singleton.1 member))
  refine ⟨before, cs, after ++ ['\n'], first, spelled, last.append lineBreak, ?_⟩
  simp [printed, text]

theorem tells_printed {json : α → Json} (each : ∀ a, isObject a (json a)) (a : α) :
    Tells isObject a (printed (json a)) :=
  ⟨json a, each a, isDocument_printed _⟩

theorem tellsAll_printed {json : α → Json} (each : ∀ a, isObject a (json a)) (as : List α) :
    TellsAll isObject as (printed (.array (as.map json))) :=
  ⟨_, List.forall₂_map_right_iff.2 (List.forall₂_same.2 fun a _ => each a), isDocument_printed _⟩

end Json

def Statistics.IsObject (s : Statistics) (j : Json) : Prop :=
  j = .object [("database", .text s.deployment.name), ("source_count", .integer s.sources),
    ("observation_count", .integer s.observations), ("file_size_bytes", .integer s.fileBytes)]

theorem Statistics.isObject_json (s : Statistics) : s.IsObject s.json := rfl

namespace Operation

/-- A text tells the result of an operation: a record that was inserted, with its id, or what was
found. Nothing is told of what was not found, nor of rows. -/
def Tells : (op : Operation) → op.Result → String → Prop
  | .insertSource s _, id, text => Json.Tells Source.IsObject { s with id } text
  | .insertObservation o _ _, id, text => Json.Tells Observation.IsObject { o with id } text
  | .getSource _, some s, text => Json.Tells Source.IsObject s text
  | .getObservation _, some o, text => Json.Tells Observation.IsObject o text
  | .findSource _, some s, text => Json.Tells Source.IsObject s text
  | .listSources _ _, found, text => Json.TellsAll Source.IsObject found text
  | .listObservations _ _, found, text => Json.TellsAll Observation.IsObject found text
  | .statistics, s, text => Json.Tells Statistics.IsObject s text
  | _, _, text => text = ""

/-- What is printed of the result of an operation. -/
def shown : (op : Operation) → op.Result → String
  | .insertSource s _, id => printed { s with id : Source }.json
  | .insertObservation o _ _, id => printed { o with id : Observation }.json
  | .getSource _, found => (found.map fun s => printed (Source.json s)).getD ""
  | .getObservation _, found => (found.map fun o => printed (Observation.json o)).getD ""
  | .findSource _, found => (found.map fun s => printed (Source.json s)).getD ""
  | .listSources _ _, found => printed (.array (found.map Source.json))
  | .listObservations _ _, found => printed (.array (found.map Observation.json))
  | .enumerate _ _ _, _ => ""
  | .lookup _ _, _ => ""
  | .statistics, s => printed (Statistics.json s)

theorem tells_shown (op : Operation) (a : op.Result) : op.Tells a (op.shown a) := by
  have source := Json.tells_printed Source.isObject_json
  have observation := Json.tells_printed Observation.isObject_json
  cases op with
  | insertSource s draws => exact source _
  | insertObservation o policy draws => exact observation _
  | getSource id =>
    cases a with
    | none => rfl
    | some s => exact source s
  | getObservation id =>
    cases a with
    | none => rfl
    | some o => exact observation o
  | findSource authenticator =>
    cases a with
    | none => rfl
    | some s => exact source s
  | listSources filter engine => exact Json.tellsAll_printed Source.isObject_json _
  | listObservations filter engine => exact Json.tellsAll_printed Observation.isObject_json _
  | enumerate t filter engine => rfl
  | lookup t id => rfl
  | statistics => exact Json.tells_printed Statistics.isObject_json _

end Operation

end ObsCatalog
