import Rulebook.Proofs.Registry.Registration
import Rulebook.Validator.Workspace

namespace Rulebook

-- A validator is as it was if it cannot take a check.
theorem Validator.addRule_of_error [Engine] {validator next : Validator} {name : String}
    {check : CustomCheck} {message : Option String} {code : Option ErrorCode} {error : SetupError}
    (h : validator.addRule name check message code = (next, .error error)) : next = validator := by
  rw [addRule, Prod.mk.injEq] at h
  obtain ⟨rfl, hresult⟩ := h
  have hregistry := Registry.register_of_error (Prod.ext rfl hresult)
  simp only [hregistry]

namespace Workspace

open Outcome

-- What a step that succeeds writes: one validator, one set of compiled rules, or nothing.
inductive Change
  | nothing
  | keep (v : String) (validator : Validator)
  | keepRules (name : String) (rules : RuleSet)

def apply (workspace : Workspace) : Change → Workspace
  | .nothing => workspace
  | .keep v validator => workspace.keep v validator
  | .keepRules name rules => workspace.keepRules name rules

def Change.validator? : Change → Option String
  | keep v _ => some v
  | _ => none

def Change.rules? : Change → Option String
  | keepRules name _ => some name
  | _ => none

namespace Step

-- The names under which a step looks up a validator and compiled rules.
def validator? : Step → Option String
  | store .. => none
  | clone v _ | addRule v _ | compile v _ _ | run v _ _ _ | validate v _ _ _ | names v | state v
  | resolve v _ => some v

def rules? : Step → Option String
  | run _ name _ _ => some name
  | _ => none

-- The names under which a step that succeeds keeps what it made.
def keeps? : Step → Option String
  | store v _ | clone _ v | addRule v _ => some v
  | _ => none

def keepsRules? : Step → Option String
  | compile _ name _ => some name
  | _ => none

-- What a step makes of the validator and the rules that it looks up, if it succeeds. It knows
-- nothing else of a workspace.
def effect [Engine] (validator : Except Refusal Validator) (rules : Except Refusal RuleSet) :
    Step → Except Refusal (Change × Answer)
  | store v made => do
      let validator ← made
      .ok (.keep v validator, .count validator.registry.size)
  | clone _ target => do .ok (.keep target (← validator), .done)
  | addRule v registration => do
      let validator ← validator
      let r ← registration
      let (validator, result) := validator.addRule r.name r.check r.message r.code
      Refusal.ofSetup result
      .ok (.keep v validator, .count validator.registry.size)
  | compile _ target schema => do
      let validator ← validator
      let rules ← Refusal.ofSetup (validator.compile (← schema))
      .ok (.keepRules target rules, .count rules.size)
  | run _ _ data messages => do
      let rules ← rules
      let overrides ← Texts.read messages
      .ok (.nothing, .report ((← validator).validateCompiled data rules overrides))
  | validate _ data schema messages => do
      let validator ← validator
      let overrides ← Texts.read messages
      .ok (.nothing, .report (← Refusal.ofSetup (validator.validate data (← schema) overrides)))
  | names _ => do .ok (.nothing, .names (← validator).registry.names)
  | state _ => do .ok (.nothing, .state (← validator))
  | resolve _ name => do .ok (.nothing, .entry ((← validator).registry.resolve name))

end Step

def lookup (workspace : Workspace) (s : Step) : Except Refusal Validator :=
  s.validator?.elim (.error (.unknown "v")) workspace.validator

def lookupRules (workspace : Workspace) (s : Step) : Except Refusal RuleSet :=
  s.rules?.elim (.error (.unknown "schema")) workspace.compiled

variable {workspace other : Workspace} {s : Step}

-- A step that succeeds keeps what it made, under the names that it has for that.
theorem Step.effect_keeps [Engine] {validator : Except Refusal Validator}
    {rules : Except Refusal RuleSet} {change : Change} {answer : Answer}
    (h : s.effect validator rules = .ok (change, answer)) :
    change.validator? = s.keeps? ∧ change.rules? = s.keepsRules? := by
  cases s with
  | store v made =>
      obtain ⟨validator, -, h⟩ := bind_eq_ok_iff.mp h
      cases h
      exact ⟨rfl, rfl⟩
  | clone v target =>
      obtain ⟨validator, -, h⟩ := bind_eq_ok_iff.mp h
      cases h
      exact ⟨rfl, rfl⟩
  | addRule v registration =>
      obtain ⟨validator, -, h⟩ := bind_eq_ok_iff.mp h
      obtain ⟨r, -, h⟩ := bind_eq_ok_iff.mp h
      obtain ⟨next, -, h⟩ := bind_eq_ok_iff.mp h
      cases h
      exact ⟨rfl, rfl⟩
  | compile v target schema =>
      obtain ⟨validator, -, h⟩ := bind_eq_ok_iff.mp h
      obtain ⟨schema, -, h⟩ := bind_eq_ok_iff.mp h
      obtain ⟨rules, -, h⟩ := bind_eq_ok_iff.mp h
      cases h
      exact ⟨rfl, rfl⟩
  | run v name data messages =>
      obtain ⟨rules, -, h⟩ := bind_eq_ok_iff.mp h
      obtain ⟨overrides, -, h⟩ := bind_eq_ok_iff.mp h
      obtain ⟨validator, -, h⟩ := bind_eq_ok_iff.mp h
      cases h
      exact ⟨rfl, rfl⟩
  | validate v data schema messages =>
      obtain ⟨validator, -, h⟩ := bind_eq_ok_iff.mp h
      obtain ⟨overrides, -, h⟩ := bind_eq_ok_iff.mp h
      obtain ⟨schema, -, h⟩ := bind_eq_ok_iff.mp h
      obtain ⟨errors, -, h⟩ := bind_eq_ok_iff.mp h
      cases h
      exact ⟨rfl, rfl⟩
  | names v | state v | resolve v name =>
      obtain ⟨validator, -, h⟩ := bind_eq_ok_iff.mp h
      cases h
      exact ⟨rfl, rfl⟩

section

variable (workspace)

theorem validator_keep (name v : String) (validator : Validator) :
    (workspace.keep v validator).validator name =
      if v = name then .ok validator else workspace.validator name := by
  simp only [Workspace.validator, keep, Members.get?_set]
  split <;> rfl

theorem compiled_keepRules (name key : String) (rules : RuleSet) :
    (workspace.keepRules key rules).compiled name =
      if key = name then .ok rules else workspace.compiled name := by
  simp only [compiled, keepRules, Members.get?_set]
  split <;> rfl

end

section

variable {change : Change} {name : String}

-- A change is felt under its own name only, and there it does not matter what was before.
theorem validator_apply_of_ne (h : change.validator? ≠ some name) :
    (workspace.apply change).validator name = workspace.validator name := by
  cases change with
  | nothing | keepRules key rules => rfl
  | keep v validator =>
      exact (validator_keep ..).trans (if_neg fun hv => h (congrArg some hv))

theorem compiled_apply_of_ne (h : change.rules? ≠ some name) :
    (workspace.apply change).compiled name = workspace.compiled name := by
  cases change with
  | nothing | keep v validator => rfl
  | keepRules key rules =>
      exact (compiled_keepRules ..).trans (if_neg fun hkey => h (congrArg some hkey))

theorem validator_apply_of_eq (h : change.validator? = some name) (other : Workspace) :
    (other.apply change).validator name = (workspace.apply change).validator name := by
  cases change with
  | nothing | keepRules key rules => cases h
  | keep v validator =>
      cases h
      rw [apply, apply, validator_keep, validator_keep, if_pos rfl, if_pos rfl]

theorem compiled_apply_of_eq (h : change.rules? = some name) (other : Workspace) :
    (other.apply change).compiled name = (workspace.apply change).compiled name := by
  cases change with
  | nothing | keep v validator => cases h
  | keepRules key rules =>
      cases h
      rw [apply, apply, compiled_keepRules, compiled_keepRules, if_pos rfl, if_pos rfl]

end

theorem keep_of_validator {v : String} {validator : Validator}
    (h : workspace.validator v = .ok validator) : workspace.keep v validator = workspace := by
  rw [Workspace.validator] at h
  cases hfound : Members.get? v workspace.validators with
  | none =>
      rw [hfound] at h
      cases h
  | some found =>
      rw [hfound] at h
      cases h
      rw [keep, Members.set_of_get? hfound]

-- A registration that is refused writes back the validator that it was made on.
theorem step_addRule [Engine] (workspace : Workspace) (v : String)
    (registration : Except Refusal Registration) :
    workspace.step (.addRule v registration) =
      match Step.effect (workspace.validator v) (.error (.unknown "schema"))
        (.addRule v registration) with
      | .ok (change, answer) => (workspace.apply change, .ok answer)
      | .error refusal => (workspace, .error refusal) := by
  simp only [step, perform, run_bind, run_lift, run_get, run_modify,
    run_pure, Step.effect]
  cases hv : workspace.validator v with
  | error refusal => rfl
  | ok validator =>
      cases registration with
      | error refusal => rfl
      | ok r =>
          cases hadd : validator.addRule r.name r.check r.message r.code with
          | mk next result =>
              cases result with
              | ok done => simp [Refusal.ofSetup, Except.mapError, bind, Except.bind, hadd, apply]
              | error error =>
                  obtain rfl := Validator.addRule_of_error hadd
                  simp [Refusal.ofSetup, Except.mapError, bind, Except.bind, hadd,
                    keep_of_validator hv]

-- A step in the words of its effect: if it fails, everything is as it was.
theorem step_eq [Engine] (workspace : Workspace) (s : Step) :
    workspace.step s =
      match s.effect (workspace.lookup s) (workspace.lookupRules s) with
      | .ok (change, answer) => (workspace.apply change, .ok answer)
      | .error refusal => (workspace, .error refusal) := by
  cases s
  case addRule v registration => exact step_addRule workspace v registration
  all_goals simp only [step, perform, run_bind, run_lift, run_get,
    run_modify, run_pure, Step.effect, lookup, lookupRules, Step.validator?,
    Step.rules?, Option.elim_some]
  case store v made => cases made <;> rfl
  case clone v _ | names v | state v | resolve v _ => cases workspace.validator v <;> rfl
  case compile v target schema =>
    cases workspace.validator v with
    | error refusal => rfl
    | ok validator =>
        cases schema with
        | error refusal => rfl
        | ok schema =>
            simp only [bind, Except.bind]
            cases Refusal.ofSetup (validator.compile schema) <;> rfl
  case run v name data messages =>
    cases workspace.compiled name with
    | error refusal => rfl
    | ok rules =>
        cases Texts.read messages with
        | error refusal => rfl
        | ok overrides =>
            simp only [bind, Except.bind]
            cases workspace.validator v <;> rfl
  case validate v data schema messages =>
    cases workspace.validator v with
    | error refusal => rfl
    | ok validator =>
        cases Texts.read messages with
        | error refusal => rfl
        | ok overrides =>
            cases schema with
            | error refusal => rfl
            | ok schema =>
                simp only [bind, Except.bind]
                cases Refusal.ofSetup (validator.validate data schema overrides) <;> rfl

theorem step_of_effect [Engine] (workspace : Workspace) (s : Step) {change : Change}
    {answer : Answer}
    (h : s.effect (workspace.lookup s) (workspace.lookupRules s) = .ok (change, answer)) :
    workspace.step s = (workspace.apply change, .ok answer) := by
  rw [step_eq, h]

-- A step that keeps nothing leaves the workspace as it is.
theorem eq_of_keeps_nothing [Engine] {validator : Except Refusal Validator}
    {rules : Except Refusal RuleSet} {change : Change} {answer : Answer}
    (heffect : s.effect validator rules = .ok (change, answer)) (hkeeps : s.keeps? = none)
    (hrules : s.keepsRules? = none) : workspace.apply change = workspace := by
  obtain ⟨hvalidator, hcompiled⟩ := Step.effect_keeps heffect
  cases change with
  | nothing => rfl
  | keep v validator => cases hvalidator.trans hkeeps
  | keepRules name rules => cases hcompiled.trans hrules

-- A step, whether it succeeds or not, changes nothing but what it keeps.
theorem step_frame [Engine] (workspace : Workspace) (s : Step) :
    (∀ name, s.keeps? ≠ some name →
        (workspace.step s).1.validator name = workspace.validator name) ∧
      ∀ name, s.keepsRules? ≠ some name →
        (workspace.step s).1.compiled name = workspace.compiled name := by
  rw [step_eq]
  cases heffect : s.effect (workspace.lookup s) (workspace.lookupRules s) with
  | error refusal => exact ⟨fun _ _ => rfl, fun _ _ => rfl⟩
  | ok outcome =>
      obtain ⟨hkeeps, hrules⟩ := Step.effect_keeps heffect
      exact ⟨fun name hname => validator_apply_of_ne (hkeeps ▸ hname),
        fun name hname => compiled_apply_of_ne (hrules ▸ hname)⟩

end Workspace

end Rulebook
