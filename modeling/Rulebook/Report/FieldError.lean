import Rulebook.Json.Inspect
import Rulebook.Json.Record
import Rulebook.Message.Template

namespace Rulebook

inductive ErrorCode
  | invalid
  | missingField
deriving DecidableEq

namespace ErrorCode

def text : ErrorCode → String
  | invalid => "invalid"
  | missingField => "missing_field"

def ofText? : String → Option ErrorCode
  | "invalid" => some invalid
  | "missing_field" => some missingField
  | _ => none

end ErrorCode

-- Why a check rejects a value.
structure Failure where
  message : Message
  code : ErrorCode
deriving DecidableEq

namespace Failure

def invalid (template : String) (args : List String) : Failure :=
  ⟨⟨template, args⟩, .invalid⟩

end Failure

-- One error of a field. The code is a text, because a translator may change it.
structure FieldError where
  code : String
  field : String
  message : String
deriving DecidableEq

namespace FieldError

def isMissing (e : FieldError) : Bool :=
  e.code == ErrorCode.missingField.text

def line (e : FieldError) : String :=
  "[" ++ e.field ++ "] " ++ e.code ++ ": " ++ e.message

def toJson (e : FieldError) : Json :=
  .obj [("code", .str e.code), ("field", .str e.field), ("message", .str e.message)]

-- An error of a document: an object with the three texts, or a list of them.
def ofRaw? (raw : Json.Raw) : Option FieldError := do
  match ← raw.fields? ["code", "field", "message"] with
  | [code, field, message] =>
      some { code := ← code.string?, field := ← field.string?, message := ← message.string? }
  | _ => none

def listOfRaw? : Json.Raw → Option (List FieldError)
  | .arr items => items.mapM ofRaw?
  | _ => none

def listToJson (errors : List FieldError) : Json :=
  .arr (errors.map toJson)

end FieldError

end Rulebook
