import Rulebook.Validator.Refusal

namespace Rulebook

-- A check to be registered, with its message and code if it has its own.
structure Registration where
  name : String
  check : CustomCheck
  message : Option String := none
  code : Option ErrorCode := none

-- Validators and compiled rules by name.
structure Workspace where
  validators : List (String × Validator) := []
  rules : List (String × RuleSet) := []

namespace Workspace

inductive Step
  -- Keeps a validator that was made for this step, if it could be made.
  | store (v : String) (made : Except Refusal Validator)
  | clone (v target : String)
  | addRule (v : String) (registration : Except Refusal Registration)
  | compile (v target : String) (schema : Except Refusal Schema)
  | run (v rules : String) (data : Json) (messages : Option Json)
  -- Uses a validator without any change.
  | validate (v : String) (data : Json) (schema : Except Refusal Schema) (messages : Option Json)
  | names (v : String)
  | state (v : String)
  | resolve (v name : String)

inductive Answer
  | done
  | count (n : Nat)
  | report (errors : Option ErrorList)
  | names (names : List String)
  | state (validator : Validator)
  | entry (found : Option Entry)

def validator (workspace : Workspace) (v : String) : Except Refusal Validator :=
  Refusal.orRefuse (.unknown "v") (Members.get? v workspace.validators)

def compiled (workspace : Workspace) (name : String) : Except Refusal RuleSet :=
  Refusal.orRefuse (.unknown "schema") (Members.get? name workspace.rules)

def keep (workspace : Workspace) (v : String) (validator : Validator) : Workspace :=
  { workspace with validators := Members.set v validator workspace.validators }

def keepRules (workspace : Workspace) (name : String) (rules : RuleSet) : Workspace :=
  { workspace with rules := Members.set name rules workspace.rules }

-- What a step does in a workspace, up to where it fails. What it changed before is not
-- taken back.
abbrev Action := ExceptT Refusal (StateM Workspace)

def perform [Engine] : Step → Action Answer
  | .store v made => do
      let validator ← made
      modify (·.keep v validator)
      return .count validator.registry.size
  | .clone v target => do
      let validator ← (← get).validator v
      modify (·.keep target validator)
      return .done
  | .addRule v registration => do
      let validator ← (← get).validator v
      let r ← registration
      let (validator, result) := validator.addRule r.name r.check r.message r.code
      modify (·.keep v validator)
      Refusal.ofSetup result
      return .count validator.registry.size
  | .compile v target schema => do
      let validator ← (← get).validator v
      let rules ← Refusal.ofSetup (validator.compile (← schema))
      modify (·.keepRules target rules)
      return .count rules.size
  | .run v name data messages => do
      let rules ← (← get).compiled name
      let overrides ← Texts.read messages
      let validator ← (← get).validator v
      return .report (validator.validateCompiled data rules overrides)
  | .validate v data schema messages => do
      let validator ← (← get).validator v
      let overrides ← Texts.read messages
      let errors ← Refusal.ofSetup (validator.validate data (← schema) overrides)
      return .report errors
  | .names v => return .names (← (← get).validator v).registry.names
  | .state v => return .state (← (← get).validator v)
  | .resolve v name => return .entry ((← (← get).validator v).registry.resolve name)

-- The workspace that a step leaves, and its answer.
def step [Engine] (workspace : Workspace) (s : Step) : Workspace × Except Refusal Answer :=
  let (answer, next) := (perform s).run.run workspace
  (next, answer)

-- The answers of all steps, each in the workspace that the one before it left.
def runAll [Engine] (workspace : Workspace) : List Step → List (Except Refusal Answer)
  | [] => []
  | s :: rest => (workspace.step s).2 :: runAll (workspace.step s).1 rest

end Workspace

end Rulebook
