import Rulebook.Compile.Weight

namespace Rulebook

-- A check with its text in a pipe rule.
structure Token where
  name : String
  raw : Option String
deriving DecidableEq

namespace Token

-- The text is what follows the first colon. A blank one counts as none.
def read (cs : List Char) : Token :=
  let cs := Text.trimChars cs
  match Text.cut ':' cs with
  | some (name, raw) =>
      let raw := Text.trimChars raw
      { name := String.ofList (Text.trimChars name),
        raw := if raw.isEmpty then none else some (String.ofList raw) }
  | none => ⟨String.ofList cs, none⟩

def readAll (source : String) : List Token :=
  (Text.pieces '|' source.toList).map read

def args (field : String) (entry : Entry) (token : Token) : Args :=
  { rule := token.name, field, options := (token.raw.map entry.params.bind).getD [],
    raw := token.raw }

end Token

namespace Registry

def lookup (registry : Registry) (name : String) : Except SetupError Entry :=
  match registry.resolve name with
  | some entry => .ok entry
  | none => .error (.unknownCheck name)

-- A check of a pipe rule. Its options never hold a rule, so it has no parts.
def buildToken [Engine] (registry : Registry) (field : String) (token : Token) :
    Except SetupError (String × Check) := do
  let entry ← registry.lookup token.name
  .ok (token.name, ← entry.build (token.args field entry) [])

-- A check with options but without parts.
def buildPlain [Engine] (registry : Registry) (field name : String)
    (options : List (String × Json)) : Except SetupError (String × Check) := do
  let entry ← registry.lookup name
  .ok (name, ← entry.build { rule := name, field, options } [])

end Registry

namespace RuleOf

def requiredName : String := "required"

def isRequired (check : String × Check) : Bool :=
  check.1 == requiredName

-- The checks that ask for a value come first. Otherwise the order stays.
def ofChecks (checks : List (String × Check)) : Rule :=
  { checks := checks.filter isRequired ++ checks.filter (!isRequired ·)
    required := checks.any isRequired }

end RuleOf

namespace Registry

-- Whether a descriptor needs a check for the presence of a value beside its own.
def asksPresence (d : Descriptor) : Bool :=
  d.required && d.kind != RuleOf.requiredName

-- The check for the presence of a value, for a descriptor that asks for one.
def buildPresence [Engine] (registry : Registry) (field : String) (d : Descriptor) :
    Except SetupError (List (String × Check)) :=
  if asksPresence d then (registry.buildPlain field RuleOf.requiredName []).map ([·])
  else .ok []

-- Compiles a rule. The parts of a check are compiled before the check is built.
def compileRule [Engine] (registry : Registry) (field : String) (spec : Spec) :
    Except SetupError Rule :=
  match spec with
  | .pipe source => do
      .ok (.ofChecks (← (Token.readAll source).mapM (registry.buildToken field)))
  | .values allowed => do
      .ok (.ofChecks [← registry.buildPlain field "enum" [("values", .arr allowed)]])
  | .pattern source => do
      .ok (.ofChecks [← registry.buildPlain field "string" [("format", .str source)]])
  | .descriptor d =>
      let args : Args := { rule := d.kind, field, options := d.options }
      match _hentry : registry.resolve d.kind with
      | none => .error (.unknownCheck d.kind)
      | some entry =>
          match _hparts : entry.parts args with
          | .error error => .error error
          | .ok parts => do
              let rules ← parts.attach.mapM fun ⟨(name, part), _hmem⟩ => do
                .ok (name, ← compileRule registry name part)
              let check ← entry.build args rules
              let presence ← registry.buildPresence field d
              .ok (.ofChecks ((d.kind, check) :: presence))
termination_by spec.weight
decreasing_by exact weight_part_lt _hentry _hparts _hmem

def compile [Engine] (registry : Registry) (schema : Schema) : Except SetupError RuleSet := do
  .ok ⟨← schema.fields.mapM fun (name, spec) => do .ok (name, ← registry.compileRule name spec)⟩

end Registry

end Rulebook
