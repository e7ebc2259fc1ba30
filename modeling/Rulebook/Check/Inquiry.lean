import Rulebook.Check.Verdict

namespace Rulebook

-- The checks of one field, each under the name it is declared by, in the order in
-- which they run.
structure RuleOf (α : Type) where
  checks : List (String × α)
  -- Whether a missing value is an error.
  required : Bool

-- What a check of a user does with a value: it answers, or it has the validation that
-- runs it validate something else first, an object or the items of a list, and goes on
-- with the errors. The rules are those of compiled schemas that it brings with it.
inductive Inquiry (ρ α : Type)
  | answer (a : α)
  | object (fields : List (String × RuleOf ρ)) (value : Json)
      (next : List FieldError → Inquiry ρ α)
  | items (rule : RuleOf ρ) (items : List Json) (next : List FieldError → Inquiry ρ α)

end Rulebook
