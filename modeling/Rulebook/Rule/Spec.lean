import Rulebook.Rule.SetupError

namespace Rulebook

-- A check with its options by name.
structure Descriptor where
  kind : String
  required : Bool := false
  options : List (String × Json) := []

-- The rule of one field as it is declared.
inductive Spec
  -- Names of checks between bars, each with an optional text after a colon.
  | pipe (source : String)
  | descriptor (d : Descriptor)
  -- The allowed values.
  | values (allowed : List Json)
  -- A regular expression for a text.
  | pattern (source : String)

namespace Descriptor

def withOption (d : Descriptor) (name : String) (value : Json) : Descriptor :=
  { d with options := Members.set name value d.options }

-- A blank type counts as missing.
def readKind (field : String) (members : List (String × Json)) : Except SetupError String :=
  match Members.get? "type" members with
  | some (.str kind) =>
      if Text.allBlank kind then .error (.badRule field .missingType) else .ok (Text.trim kind)
  | none | some .null => .error (.badRule field .missingType)
  | some other => .error (.badRule field (.typeNotText other.kind))

def readRequired (field : String) (members : List (String × Json)) : Except SetupError Bool :=
  match Members.get? "required" members with
  | none | some .null => .ok false
  | some (.bool required) => .ok required
  | some other => .error (.badRule field (.requiredNotFlag other.kind))

def isOptionName (name : String) : Bool :=
  name != "type" && name != "required"

-- Members other than the type and the flag are options.
def ofMembers (field : String) (members : List (String × Json)) :
    Except SetupError Descriptor := do
  let kind ← readKind field members
  let required ← readRequired field members
  .ok { kind, required, options := members.filter fun (name, _) => isOptionName name }

-- An option of the name of the type or the flag overwrites it here.
def toJson (d : Descriptor) : Json :=
  let flag := if d.required then [("required", Json.bool true)] else []
  .obj (Members.ofList (("type", .str d.kind) :: flag ++ d.options))

end Descriptor

namespace Spec

def ofJson (field : String) : Json → Except SetupError Spec
  | .str source => .ok (pipe source)
  | .arr allowed => .ok (values allowed)
  | .obj members => (Descriptor.ofMembers field members).map descriptor
  | other => .error (.badRule field (.notARule other.kind))

-- A pattern has no form of its own and becomes a descriptor.
def toJson : Spec → Json
  | pipe source => .str source
  | descriptor d => d.toJson
  | values allowed => .arr allowed
  | pattern source =>
      (({ kind := "string" } : Descriptor).withOption "format" (.str source)).toJson

end Spec

end Rulebook
