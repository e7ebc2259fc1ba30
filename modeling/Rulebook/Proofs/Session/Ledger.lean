import Rulebook.Proofs.Registry.History
import Rulebook.Proofs.Session.Effect

namespace Rulebook

open Outcome

namespace Workspace

-- A step that works with what is there.
def Step.IsUse : Step → Prop
  | store .. => False
  | _ => True

-- A step of a session. A validator that is stored is made for it in one of the known ways.
inductive Act
  | make (v : String) (making : Making)
  | use (s : Step) (h : s.IsUse)

def Act.step [Engine] : Act → Step
  | make v making => .store v making.make
  | use s _ => s

-- What happened in a session: what was registered with each validator, and for compiled
-- rules what had been registered with the compiling validator, and the schema.
structure Ledger where
  histories : List (String × History) := []
  sources : List (String × (History × Schema)) := []

namespace Ledger

def history (ledger : Ledger) (v : String) : History :=
  (Members.get? v ledger.histories).getD {}

def source? (ledger : Ledger) (name : String) : Option (History × Schema) :=
  Members.get? name ledger.sources

def keep (ledger : Ledger) (v : String) (history : History) : Ledger :=
  { ledger with histories := Members.set v history ledger.histories }

def keepSource (ledger : Ledger) (name : String) (source : History × Schema) : Ledger :=
  { ledger with sources := Members.set name source ledger.sources }

-- A validator starts with the history that it was made by, or with that of the one it was
-- cloned from.
def record [Engine] (ledger : Ledger) : Act → Ledger
  | .make v making => ledger.keep v making.history
  | .use (.clone v target) _ => ledger.keep target (ledger.history v)
  | .use (.addRule v (.ok r)) _ => ledger.keep v ((ledger.history v).record (.described r))
  | .use (.compile v target (.ok schema)) _ =>
      ledger.keepSource target (ledger.history v, schema)
  | _ => ledger

-- Only what succeeds is recorded.
def next [Engine] (ledger : Ledger) (workspace : Workspace) (act : Act) : Ledger :=
  if (workspace.step act.step).2.isOk then ledger.record act else ledger

end Ledger

def proceed [Engine] (state : Workspace × Ledger) (act : Act) : Workspace × Ledger :=
  ((state.1.step act.step).1, state.2.next state.1 act)

-- The workspace and the ledger after a session that starts with nothing.
def session [Engine] (acts : List Act) : Workspace × Ledger :=
  acts.foldl proceed ({}, {})

-- A ledger that accounts for all that a workspace holds.
structure Accounts [Engine] (ledger : Ledger) (workspace : Workspace) : Prop where
  registry : ∀ {v : String} {validator : Validator}, workspace.validator v = .ok validator →
    (ledger.history v).registry = validator.registry
  rules : ∀ {name : String} {rules : RuleSet}, workspace.compiled name = .ok rules →
    ∃ source, ledger.source? name = some source ∧ source.1.registry.compile source.2 = .ok rules

namespace Accounts

variable {ledger : Ledger} {workspace : Workspace}

theorem keep [Engine] (h : Accounts ledger workspace) {v : String} {validator : Validator}
    {history : History} (hvalidator : history.registry = validator.registry) :
    Accounts (ledger.keep v history) (workspace.keep v validator) := by
  refine ⟨fun {u kept} hu => ?_, h.rules⟩
  rw [Ledger.history, Ledger.keep, Members.get?_set]
  rw [validator_keep] at hu
  by_cases hname : v = u
  · rw [if_pos hname] at hu ⊢
    cases hu
    exact hvalidator
  · rw [if_neg hname] at hu ⊢
    exact h.registry hu

theorem keepRules [Engine] (h : Accounts ledger workspace) {name : String} {rules : RuleSet}
    {source : History × Schema} (hrules : source.1.registry.compile source.2 = .ok rules) :
    Accounts (ledger.keepSource name source) (workspace.keepRules name rules) := by
  refine ⟨h.registry, fun {key kept} hkey => ?_⟩
  rw [Ledger.source?, Ledger.keepSource, Members.get?_set]
  rw [compiled_keepRules] at hkey
  by_cases hname : name = key
  · rw [if_pos hname] at hkey ⊢
    cases hkey
    exact ⟨source, rfl, hrules⟩
  · rw [if_neg hname] at hkey ⊢
    exact h.rules hkey

theorem next [Engine] (h : Accounts ledger workspace) (act : Act) :
    Accounts (ledger.next workspace act) (workspace.step act.step).1 := by
  rw [Ledger.next, step_eq]
  cases heffect : act.step.effect (workspace.lookup act.step) (workspace.lookupRules act.step) with
  | error refusal => exact h
  | ok outcome =>
      obtain ⟨change, answer⟩ := outcome
      show Accounts (ledger.record act) (workspace.apply change)
      cases act with
      | make v making =>
          obtain ⟨validator, hmake, hnext⟩ := bind_eq_ok_iff.mp heffect
          cases hnext
          exact h.keep (making.registry_history hmake)
      | use s huse =>
          cases s with
          | store v made => exact False.elim huse
          | clone v target =>
              obtain ⟨validator, hv, hnext⟩ := bind_eq_ok_iff.mp heffect
              cases hnext
              exact h.keep (h.registry hv)
          | addRule v registration =>
              obtain ⟨validator, hv, hadd⟩ := bind_eq_ok_iff.mp heffect
              obtain ⟨r, hr, hadd⟩ := bind_eq_ok_iff.mp hadd
              obtain ⟨_, hresult, hnext⟩ := bind_eq_ok_iff.mp hadd
              cases hnext
              cases hr
              have hadded := Refusal.ofSetup_eq_ok_iff.mp hresult
              refine h.keep (History.registry_record (Registry.give_described_eq_ok_iff.mpr ?_))
              rw [h.registry hv]
              exact Prod.ext rfl hadded
          | compile v target schema =>
              obtain ⟨validator, hv, hmade⟩ := bind_eq_ok_iff.mp heffect
              obtain ⟨schema, hschema, hmade⟩ := bind_eq_ok_iff.mp hmade
              obtain ⟨rules, hrules, hnext⟩ := bind_eq_ok_iff.mp hmade
              cases hnext
              cases hschema
              have hcompile : (ledger.history v).registry.compile schema = .ok rules :=
                h.registry hv ▸ Refusal.ofSetup_eq_ok_iff.mp hrules
              exact h.keepRules hcompile
          | run v name data messages | validate v data schema messages | names v | state v
          | resolve v name =>
              rw [eq_of_keeps_nothing heffect rfl rfl]
              exact h

end Accounts

theorem Accounts.foldl [Engine] {state : Workspace × Ledger} (h : Accounts state.2 state.1)
    (acts : List Act) : Accounts (acts.foldl proceed state).2 (acts.foldl proceed state).1 := by
  induction acts generalizing state with
  | nil => exact h
  | cons act rest ih => exact ih (h.next act)

-- What a session did accounts for all that its workspace holds.
theorem accounts_session [Engine] (acts : List Act) :
    Accounts (session acts).2 (session acts).1 := by
  have hstart : Accounts {} {} := by
    constructor
    · intro v validator hv
      cases hv
    · intro name rules hname
      cases hname
  exact hstart.foldl acts

end Workspace

end Rulebook
