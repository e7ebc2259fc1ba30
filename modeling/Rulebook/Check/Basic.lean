import Rulebook.Check.Inquiry
import Rulebook.Check.Leaf

namespace Rulebook

-- How a check that a user describes decides.
inductive MatcherOf (ρ : Type)
  | predicate (holds : Json → List (String × Json) → Context → Inquiry ρ Bool)
  | pattern (p : Pattern)

-- A check that is ready to run. Objects and arrays hold the rules of their parts.
inductive Check
  | leaf (check : Leaf)
  | custom (name : String) (matcher : MatcherOf Check) (options : List (String × Json))
      (message : String) (code : ErrorCode)
  -- A check with a function of its own.
  | foreign (name : String) (run : Json → Context → Inquiry Check Verdict)
  | object (fields : Option (List (String × RuleOf Check)))
  | array (min max : Option Nat) (element : Option (RuleOf Check))

abbrev Matcher := MatcherOf Check

abbrev Rule := RuleOf Check

-- The rules of the fields of a record, in the order of their declaration.
structure RuleSet where
  fields : List (String × Rule)

namespace MatcherOf

-- What is asked to decide on a value. A pattern only needs its text.
def inquiry (options : List (String × Json)) (value : Json) (context : Context) :
    MatcherOf ρ → Inquiry ρ Bool
  | predicate holds => holds value options context
  | pattern p => .answer (value.scalarText.any p.isMatch)

end MatcherOf

namespace Check

-- The name of the check itself, which may differ from the one it is declared by.
def name : Check → String
  | leaf check => check.name
  | custom name .. => name
  | foreign name _ => name
  | object _ => "object"
  | array .. => "array"

end Check

namespace RuleSet

def get? (rules : RuleSet) (name : String) : Option Rule :=
  Members.get? name rules.fields

def size (rules : RuleSet) : Nat :=
  rules.fields.length

end RuleSet

end Rulebook
