import Rulebook.Rule.Bound
import Rulebook.Rule.SetupError

namespace Rulebook

-- What a check is built from: the name it is declared under, the field, the
-- options, and the text after the colon in a pipe rule.
structure Args where
  rule : String
  field : String
  options : List (String × Json)
  raw : Option String := none

namespace Args

-- An option that is there and is not null.
def get? (args : Args) (name : String) : Option Json :=
  Json.present? name args.options

def has (args : Args) (name : String) : Bool :=
  (args.get? name).isSome

def refuse (args : Args) (name : String) (fault : OptionFault) : Except SetupError α :=
  .error (.badOption args.rule name fault)

-- A flag is off when it is missing. It may be written as a text.
def flag (args : Args) (name : String) : Except SetupError Bool :=
  match args.get? name with
  | none => .ok false
  | some (.bool b) => .ok b
  | some (.str "true") => .ok true
  | some (.str "false") => .ok false
  | some other => args.refuse name (.wrongKind .boolean other.kind)

def text (args : Args) (name : String) : Except SetupError (Option String) :=
  match args.get? name with
  | none => .ok none
  | some (.str s) => .ok (some s)
  | some other => args.refuse name (.wrongKind .string other.kind)

def count (args : Args) (name : String) : Except SetupError (Option Nat) :=
  match args.get? name with
  | none => .ok none
  | some value =>
      match value.count? with
      | some n => .ok (some n)
      | none => args.refuse name (.notCount value.display)

def bound (args : Args) (name : String) : Except SetupError (Option Bound) :=
  match args.get? name with
  | none => .ok none
  | some value =>
      match value.bound? with
      | some b => .ok (some b)
      | none => args.refuse name (.notNumber value.display)

def pattern [Engine] (args : Args) (name : String) : Except SetupError (Option Pattern) := do
  match ← args.text name with
  | none => .ok none
  | some source =>
      match Pattern.parse source with
      | .ok p => .ok (some p)
      | .error error => args.refuse name (.pattern error)

def list (args : Args) (name : String) : Except SetupError (Option (List Json)) :=
  match args.get? name with
  | none => .ok none
  | some (.arr items) => .ok (some items)
  | some other => args.refuse name (.wrongKind .array other.kind)

end Args

end Rulebook
