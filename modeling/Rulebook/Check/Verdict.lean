import Rulebook.Report.FieldError

namespace Rulebook

-- Where a value stands: the record that holds it, the whole input, and its path.
structure Context where
  record : Json
  root : Json
  path : String

-- What a check says of a value. A check that validates parts of its own may give
-- their errors, with paths and messages that are final.
inductive Verdict
  | pass
  | fail (failure : Failure)
  | nested (errors : List FieldError)

namespace Verdict

def ofOption : Option Failure → Verdict
  | none => pass
  | some failure => fail failure

def when (passed : Bool) (failure : Failure) : Verdict :=
  if passed then pass else fail failure

end Verdict

end Rulebook
