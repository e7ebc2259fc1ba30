import Rulebook.Report.ErrorList

namespace Rulebook

-- The body of the response to a request that fails validation.
structure Rejection where
  code : String
  message : String
  errors : List FieldError
deriving DecidableEq

namespace Rejection

def status : Nat := 422

def ofErrors (errors : ErrorList) : Rejection :=
  { code := "invalid_param", message := "Validation Failed", errors := errors.toList }

def shown (r : Rejection) : String :=
  r.message ++ ": " ++ Text.natText r.errors.length ++ " error(s)"

def toJson (r : Rejection) : Json :=
  .obj [("code", .str r.code), ("message", .str r.message),
    ("errors", FieldError.listToJson r.errors)]

-- A body of a document: an object with the three parts, or a list of them.
def ofRaw? (raw : Json.Raw) : Option Rejection := do
  match ← raw.fields? ["code", "message", "errors"] with
  | [code, message, errors] =>
      some
        { code := ← code.string?
          message := ← message.string?
          errors := ← FieldError.listOfRaw? errors }
  | _ => none

-- The body of a text.
def read? (text : String) : Option Rejection :=
  (Json.Raw.parse? text).bind ofRaw?

end Rejection

end Rulebook
