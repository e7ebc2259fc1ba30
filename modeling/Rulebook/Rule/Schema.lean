import Rulebook.Json.Reader
import Rulebook.Rule.Spec

namespace Rulebook

-- The rules of the fields in the order of their declaration.
structure Schema where
  fields : List (String × Spec) := []

namespace Schema

-- A field that is there keeps its place.
def insert (schema : Schema) (name : String) (spec : Spec) : Schema :=
  ⟨Members.set name spec schema.fields⟩

def ofList (fields : List (String × Spec)) : Schema :=
  ⟨Members.ofList fields⟩

def get? (schema : Schema) (name : String) : Option Spec :=
  Members.get? name schema.fields

def size (schema : Schema) : Nat :=
  schema.fields.length

def ofMembers : List (String × Json) → Except SetupError (List (String × Spec))
  | [] => .ok []
  | (name, value) :: rest => do
      let spec ← Spec.ofJson name value
      .ok ((name, spec) :: (← ofMembers rest))

def ofJson : Json → Except SetupError Schema
  | .obj members => (ofMembers members).map Schema.mk
  | other => .error (.schemaNotObject other.kind)

def ofText [JsonReader] (text : String) : Except SetupError Schema :=
  match JsonReader.read? text with
  | some value => ofJson value
  | none => .error (.badRule "<schema>" .notJson)

def toJson (schema : Schema) : Json :=
  .obj (schema.fields.map fun (name, spec) => (name, spec.toJson))

end Schema

namespace Descriptor

def withSchema (d : Descriptor) (schema : Schema) : Descriptor :=
  d.withOption "rule" schema.toJson

end Descriptor

end Rulebook
