import Rulebook.Json.Inspect
import Rulebook.Regex.Pattern

namespace Rulebook

-- Why the rule of a field cannot be read.
inductive RuleFault
  | notARule (found : Json.Kind)
  | missingType
  | typeNotText (found : Json.Kind)
  | requiredNotFlag (found : Json.Kind)
  | notJson
deriving DecidableEq

-- Why the value of an option cannot be used.
inductive OptionFault
  | wrongKind (expected found : Json.Kind)
  | notCount (shown : String)
  | notNumber (shown : String)
  | pattern (error : PatternError)
deriving DecidableEq

-- What makes a schema or a registration unusable.
inductive SetupError
  | schemaNotObject (found : Json.Kind)
  | badRule (field : String) (fault : RuleFault)
  | unknownCheck (name : String)
  | missingList (rule option : String)
  | badOption (rule option : String) (fault : OptionFault)
  | badBounds (rule : String) (min max : Nat)
  | namelessCheck
  | badCheck (name : String) (error : PatternError)
deriving DecidableEq

namespace RuleFault

def reason : RuleFault → String
  | notARule found => "expected string, array or object, got " ++ found.name
  | missingType => "missing `type`"
  | typeNotText found => "`type` should be a string, got " ++ found.name
  | requiredNotFlag found => "`required` should be a boolean, got " ++ found.name
  | notJson => "<json error>"

end RuleFault

namespace OptionFault

def reason : OptionFault → String
  | wrongKind expected found => "expected " ++ expected.name ++ ", got " ++ found.name
  | notCount shown => "expected a non-negative integer, got " ++ shown
  | notNumber shown => "expected a number, got " ++ shown
  | pattern error => error.reason

end OptionFault

namespace SetupError

def ticked (s : String) : String :=
  "`" ++ s ++ "`"

def message : SetupError → String
  | schemaNotObject found => "need object type rule, got " ++ found.name
  | badRule field fault => "invalid rule for " ++ ticked field ++ ": " ++ fault.reason
  | unknownCheck name =>
      "Rule " ++ name ++ " is not builtin, check your type or you should add custom rule"
  | missingList rule option => "check " ++ rule ++ " need array type " ++ option
  | badOption rule option fault =>
      "invalid " ++ ticked option ++ " for " ++ rule ++ ": " ++ fault.reason
  | badBounds rule min max =>
      "min and max should be in the valid range for " ++ rule ++ ": min=" ++ Text.natText min ++
        ", max=" ++ Text.natText max
  | namelessCheck => "`type` required: a check needs a non-empty name"
  | badCheck name error =>
      "check " ++ ticked name ++ " must be a predicate or a valid regular expression: " ++
        error.reason

def code : SetupError → String
  | schemaNotObject _ => "RULE_INVALID_SCHEMA"
  | badRule .. => "RULE_INVALID"
  | unknownCheck _ => "RULE_UNKNOWN"
  | missingList .. => "RULE_MISSING_OPTION"
  | badOption .. => "RULE_INVALID_OPTION"
  | badBounds .. => "RULE_INVALID_BOUNDS"
  | namelessCheck => "CHECK_MISSING_NAME"
  | badCheck .. => "CHECK_INVALID"

def category : SetupError → String
  | schemaNotObject _ | badRule .. => "schema"
  | unknownCheck _ => "lookup"
  | missingList .. | badOption .. | badBounds .. => "option"
  | namelessCheck | badCheck .. => "registration"

end SetupError

end Rulebook
