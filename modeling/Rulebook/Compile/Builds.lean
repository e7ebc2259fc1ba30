import Rulebook.Compile.Basic

namespace Rulebook

-- A compilation that keeps a list of what its checks are built from, in the order in which they
-- are asked for. What was asked for before a failure stays in the list.
abbrev Tracing := ExceptT SetupError (StateM (List Args))

namespace Tracing

-- Asks the entry for a check. Its parts are compiled after that.
def build [Engine] (entry : Entry) (args : Args) (parts : Tracing (List (String × Rule))) :
    Tracing Check := do
  modify (· ++ [args])
  let rules ← parts
  entry.build args rules

end Tracing

namespace Registry

def traceToken [Engine] (registry : Registry) (field : String) (token : Token) :
    Tracing (String × Check) := do
  let entry ← registry.lookup token.name
  return (token.name, ← Tracing.build entry (token.args field entry) (pure []))

def tracePlain [Engine] (registry : Registry) (field name : String)
    (options : List (String × Json)) : Tracing (String × Check) := do
  let entry ← registry.lookup name
  return (name, ← Tracing.build entry { rule := name, field, options } (pure []))

def tracePresence [Engine] (registry : Registry) (field : String) (d : Descriptor) :
    Tracing (List (String × Check)) :=
  if asksPresence d then do return [← registry.tracePlain field RuleOf.requiredName []]
  else return []

def traceRule [Engine] (registry : Registry) (field : String) (spec : Spec) : Tracing Rule :=
  match spec with
  | .pipe source => do
      return .ofChecks (← (Token.readAll source).mapM (registry.traceToken field))
  | .values allowed => do
      return .ofChecks [← registry.tracePlain field "enum" [("values", .arr allowed)]]
  | .pattern source => do
      return .ofChecks [← registry.tracePlain field "string" [("format", .str source)]]
  | .descriptor d =>
      let args : Args := { rule := d.kind, field, options := d.options }
      match _hentry : registry.resolve d.kind with
      | none => throw (.unknownCheck d.kind)
      | some entry => do
          let parts : Tracing (List (String × Rule)) :=
            match _hparts : entry.parts args with
            | .error error => throw error
            | .ok parts => parts.attach.mapM fun ⟨(name, part), _hmem⟩ => do
                return (name, ← traceRule registry name part)
          let check ← Tracing.build entry args parts
          let presence ← registry.tracePresence field d
          return .ofChecks ((d.kind, check) :: presence)
termination_by spec.weight
decreasing_by exact weight_part_lt _hentry _hparts _hmem

def trace [Engine] (registry : Registry) (schema : Schema) : Tracing RuleSet := do
  let fields ← schema.fields.mapM fun (name, spec) => do
    return (name, ← registry.traceRule name spec)
  return ⟨fields⟩

-- What the checks of a schema are built from.
def builds [Engine] (registry : Registry) (schema : Schema) : List Args :=
  ((registry.trace schema).run.run []).2

end Registry

end Rulebook
