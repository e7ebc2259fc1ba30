import Rulebook.Registry.Builtin

namespace Rulebook

-- A check that a user adds: a predicate or a pattern, with the names of its
-- parameters in pipe rules.
inductive CustomKind
  | predicate (holds : Json → List (String × Json) → Context → Inquiry Check Bool)
  | pattern (source : String)

structure CustomCheck where
  kind : CustomKind
  params : List String := []

-- The text of the expression is read again, as that of a pattern.
def CustomCheck.ofExpression [Engine] (e : Expression) : CustomCheck :=
  { kind := .pattern e.source }

-- A check that was added to a registry.
inductive Extension
  | custom (matcher : Matcher) (template : String) (code : ErrorCode) (params : List String)
  -- A check that is built by a function of its own.
  | foreign (params : Params)
      (build : Args → Except SetupError (Json → Context → Inquiry Check Verdict))

inductive Entry
  | builtin (check : Builtin)
  | extension (check : Extension)

def Extension.params : Extension → Params
  | custom _ _ _ params => .positional params
  | foreign params _ => params

def Entry.params : Entry → Params
  | builtin check => check.params
  | extension check => check.params

-- The checks by name: those that were added, and the catalogue unless the registry
-- began without it. What is added hides what had the name before.
structure Registry where
  catalogue : Bool := true
  added : List (String × Extension) := []

namespace Registry

def empty : Registry :=
  { catalogue := false }

def builtin? (registry : Registry) (name : String) : Option Builtin :=
  if registry.catalogue then Builtin.named? name else none

def resolve (registry : Registry) (name : String) : Option Entry :=
  ((Members.get? name registry.added).map .extension).or ((registry.builtin? name).map .builtin)

def contains (registry : Registry) (name : String) : Bool :=
  (registry.resolve name).isSome

def add (registry : Registry) (name : String) (check : Extension) : Registry :=
  { registry with added := Members.set name check registry.added }

-- All names, those of the catalogue first.
def keys (registry : Registry) : List String :=
  let builtins := if registry.catalogue then Builtin.names.map (·.1) else []
  builtins ++ (registry.added.map (·.1)).filter (!builtins.contains ·)

-- All names in ascending order.
def names (registry : Registry) : List String :=
  registry.keys.mergeSort fun a b => decide (a ≤ b)

def size (registry : Registry) : Nat :=
  registry.keys.length

def matcher [Engine] (name : String) : CustomKind → Except SetupError Matcher
  | .predicate holds => .ok (.predicate holds)
  | .pattern source =>
      match Pattern.parse source with
      | .ok p => .ok (.pattern p)
      | .error error => .error (.badCheck name error)

-- The message of a check that is registered without one.
def defaultMessage (name : String) : Matcher → String
  | .predicate _ => "should be a valid " ++ name
  | .pattern p => "should match " ++ p.display

-- Adds a check that a user describes, and tells what became of it. The name must not be
-- blank and a pattern must be an expression. The registry is what is left in either case.
def register [Engine] (registry : Registry) (name : String) (check : CustomCheck)
    (message : Option String) (code : Option ErrorCode) : Registry × Except SetupError Unit :=
  if Text.allBlank name then (registry, .error .namelessCheck)
  else
    match matcher name check.kind with
    | .error error => (registry, .error error)
    | .ok matcher =>
        let template := message.getD (defaultMessage name matcher)
        let entry := .custom matcher template (code.getD .invalid) check.params
        (registry.add name entry, .ok ())

end Registry

namespace Extension

-- The message of a check with the texts of its options in place.
def describe (template : String) (options : List (String × Json)) : String :=
  Placeholder.fill (fun name => (Json.present? name options).map Json.display) template

def build (args : Args) : Extension → Except SetupError Check
  | custom matcher template code _ =>
      .ok (.custom args.rule matcher args.options (describe template args.options) code)
  | foreign _ build => (build args).map (.foreign args.rule)

end Extension

namespace Entry

def build [Engine] (args : Args) (parts : List (String × Rule)) : Entry → Except SetupError Check
  | builtin check => check.build args parts
  | extension check => check.build args

end Entry

end Rulebook
