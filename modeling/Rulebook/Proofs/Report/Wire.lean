import Rulebook.Proofs.Json.Record
import Rulebook.Report.Rejection

namespace Rulebook

open Outcome (mapM_eq_some_iff)

namespace FieldError

-- The documents of an error: its three fields are strings that stand for its texts.
def Presents (e : FieldError) (raw : Json.Raw) : Prop :=
  ∃ code field message : Json.Raw,
    raw.Fields ["code", "field", "message"] [code, field, message] ∧
      code.Says e.code ∧ field.Says e.field ∧ message.Says e.message

theorem ofRaw?_eq_some_iff {raw : Json.Raw} {e : FieldError} :
    ofRaw? raw = some e ↔ e.Presents raw := by
  have hnames : ["code", "field", "message"].Nodup := by decide
  simp only [ofRaw?, Option.bind_eq_bind, Option.bind_eq_some_iff,
    Json.Raw.fields?_eq_some_iff hnames]
  constructor
  · rintro ⟨values, hvalues, h⟩
    split at h
    · next code field message =>
        simp only [Option.bind_eq_some_iff, Json.Raw.string?_eq_some_iff] at h
        obtain ⟨_, hcode, _, hfield, _, hmessage, h⟩ := h
        cases h
        exact ⟨code, field, message, hvalues, hcode, hfield, hmessage⟩
    · cases h
  · rintro ⟨code, field, message, hvalues, hcode, hfield, hmessage⟩
    rw [← Json.Raw.string?_eq_some_iff] at hcode hfield hmessage
    exact ⟨_, hvalues, by simp only [hcode, hfield, hmessage, Option.bind_some]⟩

theorem mapM_ofRaw?_eq_some_iff {items : List Json.Raw} {errors : List FieldError} :
    items.mapM ofRaw? = some errors ↔ List.Forall₂ Presents errors items := by
  simp only [mapM_eq_some_iff, ofRaw?_eq_some_iff]
  exact ⟨fun h => h.flip, fun h => h.flip⟩

theorem listOfRaw?_eq_some_iff {raw : Json.Raw} {errors : List FieldError} :
    listOfRaw? raw = some errors ↔
      ∃ items, raw = .arr items ∧ List.Forall₂ Presents errors items := by
  cases raw <;> simp [listOfRaw?, mapM_ofRaw?_eq_some_iff]

theorem presents_raw (e : FieldError) : e.Presents e.toJson.raw := by
  have hfields := Json.Raw.fields_raw
    [("code", .str e.code), ("field", .str e.field), ("message", .str e.message)]
  exact ⟨_, _, _, hfields, .raw _, .raw _, .raw _⟩

theorem toJson_textual (e : FieldError) : e.toJson.Textual := by
  refine .obj ?_
  simp only [List.forall_mem_cons]
  exact ⟨.str _, .str _, .str _, nofun⟩

end FieldError

namespace Rejection

-- The documents of a body: its fields are two strings that stand for its texts, and a list of
-- documents of its errors.
def Presents (r : Rejection) (raw : Json.Raw) : Prop :=
  ∃ (code message : Json.Raw) (items : List Json.Raw),
    raw.Fields ["code", "message", "errors"] [code, message, .arr items] ∧
      code.Says r.code ∧ message.Says r.message ∧ List.Forall₂ FieldError.Presents r.errors items

theorem ofRaw?_eq_some_iff {raw : Json.Raw} {r : Rejection} :
    ofRaw? raw = some r ↔ r.Presents raw := by
  have hnames : ["code", "message", "errors"].Nodup := by decide
  simp only [ofRaw?, Option.bind_eq_bind, Option.bind_eq_some_iff,
    Json.Raw.fields?_eq_some_iff hnames]
  constructor
  · rintro ⟨values, hvalues, h⟩
    split at h
    · next code message errors =>
        simp only [Option.bind_eq_some_iff, Json.Raw.string?_eq_some_iff,
          FieldError.listOfRaw?_eq_some_iff] at h
        obtain ⟨_, hcode, _, hmessage, _, ⟨items, rfl, hitems⟩, h⟩ := h
        cases h
        exact ⟨code, message, items, hvalues, hcode, hmessage, hitems⟩
    · cases h
  · rintro ⟨code, message, items, hvalues, hcode, hmessage, hitems⟩
    have herrors := FieldError.listOfRaw?_eq_some_iff.mpr ⟨items, rfl, hitems⟩
    rw [← Json.Raw.string?_eq_some_iff] at hcode hmessage
    exact ⟨_, hvalues, by simp only [hcode, hmessage, herrors, Option.bind_some]⟩

theorem presents_raw (r : Rejection) : r.Presents r.toJson.raw := by
  have hfields := Json.Raw.fields_raw [("code", .str r.code), ("message", .str r.message),
    ("errors", FieldError.listToJson r.errors)]
  refine ⟨_, _, (r.errors.map FieldError.toJson).map Json.raw, ?_, .raw _, .raw _, ?_⟩
  · rwa [← Json.rawItems_eq_map]
  · rw [List.map_map]
    exact List.forall₂_map_right_iff.mpr (List.forall₂_same.mpr fun e _ => e.presents_raw)

theorem toJson_textual (r : Rejection) : r.toJson.Textual := by
  refine .obj ?_
  simp only [List.forall_mem_cons]
  exact ⟨.str _, .str _, .arr (List.forall_mem_map.mpr fun e _ => e.toJson_textual), nofun⟩

theorem read?_eq_some_iff {text : String} {r : Rejection} :
    read? text = some r ↔ ∃ raw : Json.Raw, raw.WrittenIn text ∧ r.Presents raw := by
  simp only [read?, Option.bind_eq_some_iff, Json.Raw.parse?_eq_some_iff, ofRaw?_eq_some_iff]

theorem read?_compact (r : Rejection) : read? r.toJson.compact = some r :=
  read?_eq_some_iff.mpr ⟨r.toJson.raw, r.toJson_textual.raw_writtenIn.1, r.presents_raw⟩

-- A body that is written as a document of its own.
theorem read?_pretty (r : Rejection) : read? (r.toJson.pretty ++ "\n") = some r :=
  read?_eq_some_iff.mpr ⟨r.toJson.raw, r.toJson_textual.raw_writtenIn.2, r.presents_raw⟩

-- The wire body loses nothing. What is written for the errors of a validation is read as a body
-- with these errors in their order, and no other; every body that is read from a text is read
-- again from what is written for it, so different bodies are written differently; and the texts
-- that are read as a body are those of its documents: with any space, in any order of the
-- members and with any others beside them, but with each field once.
theorem read?_written :
    (∀ (errors : ErrorList) (r : Rejection), read? (ofErrors errors).toJson.compact = some r ↔
      r = ⟨"invalid_param", "Validation Failed", errors.toList⟩) ∧
    (∀ (text : String) (r : Rejection), read? text = some r →
      read? r.toJson.compact = some r ∧ read? (r.toJson.pretty ++ "\n") = some r) ∧
    (∀ r : Rejection, read? r.toJson.compact = some r ∧
      ∀ other : Rejection, other.toJson.compact = r.toJson.compact → other = r) ∧
    ∀ (text : String) (r : Rejection),
      read? text = some r ↔ ∃ raw : Json.Raw, raw.WrittenIn text ∧ r.Presents raw := by
  refine ⟨fun errors r => ?_, fun text r _ => ⟨r.read?_compact, r.read?_pretty⟩,
    fun r => ⟨r.read?_compact, fun other h => ?_⟩, fun text r => read?_eq_some_iff⟩
  · rw [read?_compact, Option.some.injEq]
    exact eq_comm
  · have hother := other.read?_compact
    rw [h, read?_compact] at hother
    exact (Option.some.inj hother).symm

-- An error whose texts have quotes, a backslash, a line break and a control character.
def outage : FieldError :=
  ⟨"invalid", "say \"hi\"", "C:\\tmp\n\x01"⟩

-- Its body with other members, one of them too large for a number and one with half of a
-- surrogate pair, with space, and with an escape in the name of a field.
def outageText : String :=
  "\x7b \"retry\": 1e999, \"errors\": [\x7b\"message\": \"C:\\\\tmp\\n\\u0001\"," ++
    " \"field\": \"say \\\"hi\\\"\", \"\\u0063ode\": \"invalid\"\x7d]," ++
    " \"message\": \"Validation Failed\", \"trace\": [\"\\ud800\"]," ++
    " \"code\": \"invalid_param\" \x7d"

theorem read?_written_outage :
    read? outageText = some (ofErrors ⟨outage, []⟩) ∧
      read? ("\x7b\"code\":\"invalid_param\",\"message\":\"Validation Failed\",\"errors\":[" ++
        "\x7b\"code\":\"invalid\",\"field\":\"say \\\"hi\\\"\"," ++
        "\"message\":\"C:\\\\tmp\\n\\u0001\"\x7d]\x7d") = some (ofErrors ⟨outage, []⟩) := by
  have hread : read? outageText = some (ofErrors ⟨outage, []⟩) := by decide +kernel
  have hwritten : (ofErrors ⟨outage, []⟩).toJson.compact =
      "\x7b\"code\":\"invalid_param\",\"message\":\"Validation Failed\",\"errors\":[" ++
        "\x7b\"code\":\"invalid\",\"field\":\"say \\\"hi\\\"\"," ++
        "\"message\":\"C:\\\\tmp\\n\\u0001\"\x7d]\x7d" := by
    decide +kernel
  rw [← hwritten]
  exact ⟨hread, (read?_written.2.1 outageText _ hread).1⟩

-- A field that stands twice is refused.
example :
    read? ("\x7b\"code\":\"a\",\"message\":\"b\",\"errors\":[],\"code\":\"a\"\x7d") = none := by
  decide +kernel

end Rejection

end Rulebook
