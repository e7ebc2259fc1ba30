import Rulebook.Proofs.Compile.Induction
import Rulebook.Proofs.Session.Failure
import Rulebook.Proofs.Session.Isolation
import Rulebook.Proofs.Session.Ledger
import Rulebook.Regex.Engine

namespace Rulebook

open Outcome

namespace Workspace

variable {workspace : Workspace} {ledger : Ledger}

-- A registration fails on a blank name and on a pattern that is none, and on nothing else.
theorem isOk_step_addRule_iff [Engine] {v : String} {r : Registration} :
    (workspace.step (.addRule v (.ok r))).2.isOk = true ↔
      (∃ validator, workspace.validator v = .ok validator) ∧ Text.allBlank r.name = false ∧
        ∃ m, Registry.matcher r.name r.check.kind = .ok m := by
  have hlookup : workspace.lookup (.addRule v (.ok r)) = workspace.validator v := rfl
  simp only [isOk_step, hlookup, Step.effect, isOk_bind_iff, Except.ok.injEq, exists_eq_left',
    Refusal.ofSetup_eq_ok_iff, Validator.addRule]
  constructor
  · rintro ⟨validator, hv, _, hresult, -⟩
    obtain ⟨hname, m, hm, -⟩ := Registry.register_eq_ok_iff.mp (Prod.ext rfl hresult)
    exact ⟨⟨validator, hv⟩, hname, m, hm⟩
  · rintro ⟨⟨validator, hv⟩, hname, m, hm⟩
    have hadded : validator.registry.register r.name r.check r.message r.code = (_, .ok ()) :=
      Registry.register_eq_ok_iff.mpr ⟨hname, m, hm, rfl⟩
    exact ⟨validator, hv, (), congrArg Prod.snd hadded, rfl⟩

theorem isOk_step_compile_iff [Engine] {v name : String} {schema : Schema} :
    (workspace.step (.compile v name (.ok schema))).2.isOk = true ↔
      ∃ validator rules, workspace.validator v = .ok validator ∧
        validator.compile schema = .ok rules := by
  have hlookup : workspace.lookup (.compile v name (.ok schema)) = workspace.validator v := rfl
  simp only [isOk_step, hlookup, Step.effect, isOk_bind_iff, Except.ok.injEq, exists_eq_left',
    Refusal.ofSetup_eq_ok_iff]
  constructor
  · rintro ⟨validator, hv, rules, hrules, -⟩
    exact ⟨validator, rules, hv, hrules⟩
  · rintro ⟨validator, rules, hv, hrules⟩
    exact ⟨validator, hv, rules, hrules, rfl⟩

-- What rules answer is settled by what they were compiled from and by the settings of the
-- validator that runs them.
theorem Accounts.step_run [Engine] (h : Accounts ledger workspace) {name : String} {rules : RuleSet}
    (hrules : workspace.compiled name = .ok rules) :
    ∃ history schema, ledger.source? name = some (history, schema) ∧
      ∀ {v : String} {validator : Validator} {messages : Option Json} {overrides : Texts},
        workspace.validator v = .ok validator → Texts.read messages = .ok overrides →
        ∀ data, ∃ errors,
          Validator.validate ⟨history.registry, validator.config⟩ data schema overrides =
            .ok errors ∧
          (workspace.step (.run v name data messages)).2 = .ok (.report errors) := by
  obtain ⟨⟨history, schema⟩, hsource, hcompile⟩ := h.rules hrules
  refine ⟨history, schema, hsource, fun {v validator messages overrides} hv hread data => ?_⟩
  refine ⟨validator.validateCompiled data rules overrides, ?_, ?_⟩
  · exact bind_eq_ok_iff.mpr ⟨rules, hcompile, rfl⟩
  · have heffect : Step.effect (workspace.validator v) (workspace.compiled name)
        (.run v name data messages) =
          .ok (.nothing, .report (validator.validateCompiled data rules overrides)) :=
      bind_eq_ok_iff.mpr ⟨rules, hrules, bind_eq_ok_iff.mpr ⟨overrides, hread,
        bind_eq_ok_iff.mpr ⟨validator, hv, rfl⟩⟩⟩
    rw [step_of_effect workspace (.run v name data messages) heffect]

-- What holds in every session, whatever its steps are and whether they succeed.
-- A validator holds what was registered with it, or with the one that it was cloned from
-- before it was: under each name what came last. It lists these names in ascending order,
-- each once.
-- A registry or a validator that refuses a check is left as it was. So a step that
-- fails leaves everything as it was, and a session answers as the session of its steps that
-- succeed: blank names, patterns that are none and schemas that do not compile are what fails.
-- A registration changes no answer but those of steps that look up the validator that it
-- is made on, one cloned from it later, or rules that one of these compiles later.
-- Compiled rules answer as their schema does under what was registered when they were
-- compiled, with the settings that the running validator has now.
theorem session_snapshots [Engine] (acts : List Act)
    (hsession : session acts = (workspace, ledger)) :
    (∀ {v : String} {validator : Validator}, workspace.validator v = .ok validator →
      (ledger.history v).registry = validator.registry ∧
        (∀ name, validator.registry.resolve name = (ledger.history v).last? name) ∧
        validator.registry.names.Pairwise (· < ·) ∧
        validator.registry.names.length = validator.registry.size ∧
        ∀ name, name ∈ validator.registry.names ↔
          ((ledger.history v).last? name).isSome = true) ∧
      ((∀ (registry : Registry) (r : Registration) error,
          (registry.register r.name r.check r.message r.code).2 = .error error →
            (registry.register r.name r.check r.message r.code).1 = registry) ∧
        (∀ (validator : Validator) (r : Registration) error,
          (validator.addRule r.name r.check r.message r.code).2 = .error error →
            (validator.addRule r.name r.check r.message r.code).1 = validator) ∧
        (∀ s, (workspace.step s).2.isOk = false → (workspace.step s).1 = workspace) ∧
        (∀ steps, workspace.after (workspace.succeeding steps) = workspace.after steps ∧
          workspace.runAll (workspace.succeeding steps) =
            (workspace.runAll steps).filter (·.isOk)) ∧
        (∀ v r, (workspace.step (.addRule v (.ok r))).2.isOk = true ↔
          (∃ validator, workspace.validator v = .ok validator) ∧ Text.allBlank r.name = false ∧
            ∃ m, Registry.matcher r.name r.check.kind = .ok m) ∧
        ∀ v name schema, (workspace.step (.compile v name (.ok schema))).2.isOk = true ↔
          ∃ validator rules, workspace.validator v = .ok validator ∧
            validator.compile schema = .ok rules) ∧
      (∀ v registration rest,
        observed { validators := [v] } (workspace.step (.addRule v registration)).1 rest =
          observed { validators := [v] } workspace rest) ∧
      ∀ {name : String} {rules : RuleSet}, workspace.compiled name = .ok rules →
        ∃ history schema, ledger.source? name = some (history, schema) ∧
          ∀ {v : String} {validator : Validator} {messages : Option Json} {overrides : Texts},
            workspace.validator v = .ok validator → Texts.read messages = .ok overrides →
            ∀ data, ∃ errors,
              Validator.validate ⟨history.registry, validator.config⟩ data schema overrides =
                .ok errors ∧
              (workspace.step (.run v name data messages)).2 = .ok (.report errors) := by
  have haccounts : Accounts ledger workspace := by
    have h := accounts_session acts
    rwa [hsession] at h
  refine ⟨fun {v validator} hv => ?_,
    ⟨fun registry r error h => Registry.register_of_error (Prod.ext rfl h),
      fun validator r error h => Validator.addRule_of_error (Prod.ext rfl h),
      fun s => step_of_not_isOk, runAll_succeeding workspace,
      fun v r => isOk_step_addRule_iff, fun v name schema => isOk_step_compile_iff⟩,
    observed_addRule workspace, haccounts.step_run⟩
  have hregistry := haccounts.registry hv
  have hresolve : ∀ name, validator.registry.resolve name = (ledger.history v).last? name := by
    intro name
    rw [← hregistry, History.resolve_registry]
  have hadded := hregistry ▸ (ledger.history v).nodup_added
  refine ⟨hregistry, hresolve, Registry.names_ascending hadded, Registry.length_names _, ?_⟩
  intro name
  rw [Registry.mem_names_iff, Registry.contains, hresolve]

end Workspace

-- A check that no value passes is replaced by one that all pass, after rules were compiled
-- with it and the validator was cloned. A registration with a blank name comes to nothing.
namespace Swap

open Workspace

def strict : CustomCheck :=
  { kind := .predicate fun _ _ _ => .answer false }

def lax : CustomCheck :=
  { kind := .predicate fun _ _ _ => .answer true }

def schema : Schema :=
  ⟨[("name", .pipe "rare")]⟩

def acts : List Act := [
  .make "base" (.new (.ok {})
    { additions := [.ok (.described { name := "rare", check := strict })] } none),
  .use (.compile "base" "rules" (.ok schema)) trivial,
  .use (.clone "base" "copy") trivial,
  .use (.addRule "base" (.ok { name := "rare", check := lax })) trivial,
  .use (.addRule "copy" (.ok { name := " ", check := lax })) trivial]

def strictRare : Extension :=
  .custom (.predicate fun _ _ _ => .answer false) "should be a valid rare" .invalid []

def laxRare : Extension :=
  .custom (.predicate fun _ _ _ => .answer true) "should be a valid rare" .invalid []

def copy : Validator :=
  { registry := Registry.add {} "rare" strictRare }

def base : Validator :=
  { registry := copy.registry.add "rare" laxRare }

def rules : RuleSet :=
  ⟨[("name", .ofChecks [("rare", .custom "rare" (.predicate fun _ _ _ => .answer false) []
    "should be a valid rare" .invalid)])]⟩

def workspace : Workspace :=
  { validators := [("base", base), ("copy", copy)], rules := [("rules", rules)] }

def ledger : Ledger :=
  { histories := [("base", { entries := [("rare", strictRare), ("rare", laxRare)] }),
      ("copy", { entries := [("rare", strictRare)] })]
    sources := [("rules", { entries := [("rare", strictRare)] }, schema)] }

theorem compile [Engine] : copy.registry.compile schema = .ok rules := by
  have hname : copy.registry.compileRule "name" (.pipe "rare") =
      .ok (.ofChecks [("rare", .custom "rare" (.predicate fun _ _ _ => .answer false) []
        "should be a valid rare" .invalid)]) := by
    rw [Registry.compileRule]
    rfl
  exact Registry.compile_eq_ok_iff.mpr (.cons ⟨rfl, hname⟩ .nil)

theorem session_eq [Engine] : session acts = (workspace, ledger) := by
  have hmake : proceed ({}, {}) (.make "base" (.new (.ok {})
      { additions := [.ok (.described { name := "rare", check := strict })] } none)) =
        ({ validators := [("base", copy)] },
          { histories := [("base", { entries := [("rare", strictRare)] })] }) := rfl
  have heffect : Step.effect (.ok copy) (.error (.unknown "schema"))
      (.compile "base" "rules" (.ok schema)) = .ok (.keepRules "rules" rules, .count 1) :=
    bind_eq_ok_iff.mpr ⟨copy, rfl, bind_eq_ok_iff.mpr ⟨schema, rfl,
      bind_eq_ok_iff.mpr ⟨rules, Refusal.ofSetup_eq_ok_iff.mpr compile, rfl⟩⟩⟩
  have hstep : ({ validators := [("base", copy)] } : Workspace).step
      (.compile "base" "rules" (.ok schema)) =
        ({ validators := [("base", copy)], rules := [("rules", rules)] }, .ok (.count 1)) :=
    step_of_effect { validators := [("base", copy)] } (.compile "base" "rules" (.ok schema)) heffect
  rw [session, acts, List.foldl_cons, hmake, List.foldl_cons]
  simp only [proceed, Ledger.next, Act.step, hstep]
  rfl

theorem validate [Engine] (data : Json) :
    Validator.validate ⟨copy.registry, {}⟩ data schema [] =
      .ok (copy.validateCompiled data rules []) :=
  bind_eq_ok_iff.mpr ⟨rules, compile, rfl⟩

end Swap

namespace Workspace

open scoped Regex

theorem session_snapshots_swap :
    session Swap.acts = (Swap.workspace, Swap.ledger) ∧
      Swap.base.registry.resolve "rare" = some (.extension Swap.laxRare) ∧
      Swap.copy.registry.resolve "rare" = some (.extension Swap.strictRare) ∧
      (Swap.workspace.step (.run "base" "rules" (.obj [("name", .str "x")]) none)).2 =
        .ok (.report (some ⟨⟨"invalid", "name", "should be a valid rare"⟩, []⟩)) := by
  obtain ⟨hregistries, -, -, hrules⟩ := session_snapshots Swap.acts Swap.session_eq
  have hbase : Swap.workspace.validator "base" = .ok Swap.base := rfl
  have hcopy : Swap.workspace.validator "copy" = .ok Swap.copy := rfl
  refine ⟨Swap.session_eq, (hregistries hbase).2.1 "rare",
    (hregistries hcopy).2.1 "rare", ?_⟩
  have hcompiled : Swap.workspace.compiled "rules" = .ok Swap.rules := rfl
  obtain ⟨history, schema, hsource, hrun⟩ := hrules hcompiled
  cases hsource
  have hread : Texts.read none = .ok [] := rfl
  obtain ⟨errors, herrors, hanswer⟩ := hrun hbase hread (.obj [("name", .str "x")])
  have hvalidate := Swap.validate (.obj [("name", .str "x")])
  cases herrors.symm.trans hvalidate
  exact hanswer

end Workspace

end Rulebook
