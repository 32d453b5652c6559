import ObsCatalog.Proofs.Calendar.Interchange
import ObsCatalog.Proofs.Json.Members
import ObsCatalog.Proofs.Json.Number
import ObsCatalog.Record.Source

/-! Sources read back from JSON.

Each member of the object that a source is written as fills one field of the draft, so
every spelling of the object is read as the source.
-/

set_option autoImplicit false

namespace ObsCatalog.Source

open Calendar Json Reader

theorem readTime_accepts {time : String} {t : Instant} (read : Interchange.read time = .ok t) :
    Accepts readTime (.text time) t := by
  refine (text_accepts _ _).bind fun c => ?_
  rw [read]
  rfl

theorem readMember_fills (s : Source) {time : String}
    (read : Interchange.read time = .ok s.createTime) :
    Fills readMember ⟨none, none, none, none⟩
      [("id", .integer s.id.toInt), ("name", .text s.name),
        ("authenticator", .text s.authenticator), ("create_time", .text time)]
      ⟨some s.id, some s.name, some s.authenticator, some s.createTime⟩ :=
  .more ((once_accepts (int64_accepts s.id) "id").bind fun _ => rfl) <|
  .more ((once_accepts (text_accepts "a string" s.name) "name").bind fun _ => rfl) <|
  .more ((once_accepts (text_accepts "a string" s.authenticator) "authenticator").bind
    fun _ => rfl) <|
  .more ((once_accepts (readTime_accepts read) "create_time").bind fun _ => rfl) <|
  .none _

/-- An object with the fields of a source, the creation time in interchange form. -/
def IsObject (s : Source) (j : Json) : Prop :=
  ∃ time, Interchange.read time = .ok s.createTime.settled ∧
    j = .object [("id", .integer s.id.toInt), ("name", .text s.name),
      ("authenticator", .text s.authenticator), ("create_time", .text time)]

theorem isObject_json (s : Source) : s.IsObject s.json :=
  ⟨_, Interchange.read_write s.createTime, rfl⟩

theorem IsObject.ofJson {s : Source} {j : Json} {text : String} (object : s.IsObject j)
    (document : IsDocument j text) :
    Source.ofJson text = .ok { s with createTime := s.createTime.settled } := by
  obtain ⟨time, read, rfl⟩ := object
  have fills := readMember_fills { s with createTime := s.createTime.settled } read
  refine document_accepts (record_accepts fun cs spelled rest p => ?_) document
  rw [readObject, bind_ok (members_fills fills spelled rest p)]
  rfl

end ObsCatalog.Source
