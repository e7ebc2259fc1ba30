import Rulebook.Report.FieldError

namespace Rulebook

-- The errors of a validation that found some, in the order of the fields.
structure ErrorList where
  first : FieldError
  rest : List FieldError

namespace ErrorList

def toList (errors : ErrorList) : List FieldError :=
  errors.first :: errors.rest

def ofList? : List FieldError → Option ErrorList
  | [] => none
  | first :: rest => some ⟨first, rest⟩

def size (errors : ErrorList) : Nat :=
  errors.toList.length

def forField (errors : ErrorList) (field : String) : List FieldError :=
  errors.toList.filter (·.field == field)

def toJson (errors : ErrorList) : Json :=
  FieldError.listToJson errors.toList

-- One line that counts the errors and one for each of them.
def shown (errors : ErrorList) : String :=
  errors.toList.foldl (fun text e => text ++ "\n  " ++ e.line)
    ("validation failed with " ++ Text.natText errors.size ++ " error(s)")

end ErrorList

end Rulebook
