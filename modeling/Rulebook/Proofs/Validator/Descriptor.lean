import Rulebook.Proofs.Compile.Arrangement
import Rulebook.Validator.Run

namespace Rulebook

open Outcome

namespace RuleOf

-- In every run a rule passes a value, or reports one failure of it, in the name of a check.
def Answers (rule : Rule) (name : String) (value : Json) (failure : Option Failure) : Prop :=
  ∀ (run : Run) (record : Json) (path : String),
    run.rule value record path rule = (failure.map (run.resolve path name)).toList

end RuleOf

namespace Run

theorem checks_leaf (run : Run) {leaf : Leaf} {value record : Json} {path : String}
    {failure : Option Failure}
    (hverdict : leaf.verdict value ⟨record, run.root, path⟩ = .ofOption failure) (name : String) :
    run.checks value record path [(name, .leaf leaf)] =
      (failure.map (run.resolve path name)).toList := by
  rw [checks, check, hverdict]
  cases failure with
  | none => rw [Verdict.ofOption, ofVerdict, checks]; rfl
  | some failure => rfl

-- A value that is there passes the check for its presence.
theorem checks_required (run : Run) {value : Json} (hvalue : value.isBlank = false)
    (record : Json) (path : String) (rest : List (String × Check)) :
    run.checks value record path ((RuleOf.requiredName, .leaf .required) :: rest) =
      run.checks value record path rest := by
  have hpass : Leaf.verdict .required value ⟨record, run.root, path⟩ = .pass := by
    simp [Leaf.verdict, hvalue, Verdict.when]
  rw [checks, check, hpass, ofVerdict]

end Run

-- The short forms of a rule stand for descriptors.
inductive Spec.StandsFor : Spec → Descriptor → Prop
  | descriptor (d : Descriptor) : StandsFor (.descriptor d) d
  | values (allowed : List Json) :
      StandsFor (.values allowed) { kind := "enum", options := [("values", .arr allowed)] }
  | pattern (source : String) :
      StandsFor (.pattern source) { kind := "string", options := [("format", .str source)] }

namespace Registry

variable {registry : Registry} {field : String} {d : Descriptor} {entry : Entry} {leaf : Leaf}

theorem compileRule_standsFor [Engine] {spec : Spec} (h : spec.StandsFor d) :
    registry.compileRule field spec = registry.compileRule field (.descriptor d) := by
  cases h with
  | descriptor d => rfl
  | values allowed => exact compileRule_values field allowed
  | pattern source => exact compileRule_pattern field source

theorem buildPresence_eq_ok [Engine] (h : d.required = true →
      registry.resolve RuleOf.requiredName = some (.builtin .required)) :
    registry.buildPresence field d =
      .ok (if asksPresence d then [(RuleOf.requiredName, .leaf .required)] else []) := by
  unfold buildPresence
  split
  · next hasks =>
      have hresolve := h (Bool.and_eq_true_iff.mp hasks).1
      simp [buildPlain, lookup, hresolve, Entry.build, Builtin.build, bind, Except.bind, Except.map]
  · rfl

-- A descriptor whose type has no rules inside compiles to its check, with the check for the
-- presence of a value if it asks for one.
theorem compileRule_flat [Engine] (hentry : registry.resolve d.kind = some entry)
    (hparts : entry.parts (d.args field) = .ok [])
    (hrequired : d.required = true →
      registry.resolve RuleOf.requiredName = some (.builtin .required)) :
    registry.compileRule field (.descriptor d) =
      (entry.build (d.args field) []).map fun check =>
        .ofChecks ((d.kind, check) ::
          if asksPresence d then [(RuleOf.requiredName, .leaf .required)] else []) := by
  have hnone : ∀ other, registry.resolve d.kind = some other →
      other.parts (d.args field) = .ok [] := by
    intro other hother
    obtain rfl : entry = other := Option.some.inj (hentry.symm.trans hother)
    exact hparts
  have hargs : ({ rule := d.kind, field, options := d.options } : Args) = d.args field := rfl
  rw [compileRule_of_parts_eq_nil hnone, buildPlain, lookup_eq_ok_iff.mpr hentry,
    buildPresence_eq_ok hrequired, hargs]
  simp only [bind, Except.bind]
  cases entry.build (d.args field) [] <;> rfl

end Registry

-- The rule of a value that is there runs its own check.
theorem Run.rule_leaf (run : Run) (d : Descriptor) (leaf : Leaf) {value : Json}
    (hnull : value.isNull = false) (hblank : d.required = true → value.isBlank = false)
    (record : Json) (path : String) :
    run.rule value record path (.ofChecks ((d.kind, .leaf leaf) ::
        if Registry.asksPresence d then [(RuleOf.requiredName, .leaf .required)] else [])) =
      run.checks value record path [(d.kind, .leaf leaf)] := by
  rw [Run.rule, if_neg (by simp [hnull])]
  by_cases hasks : Registry.asksPresence d = true
  · obtain ⟨hflag, hkind⟩ := Bool.and_eq_true_iff.mp hasks
    have hkind : d.kind ≠ RuleOf.requiredName := by simpa using hkind
    rw [if_pos hasks, RuleOf.checks_ofChecks_pair hkind rfl, Run.checks_required run (hblank hflag)]
  · rw [if_neg hasks, RuleOf.checks_ofChecks_singleton]

namespace Registry

variable {registry : Registry} {field : String} {d : Descriptor} {entry : Entry} {leaf : Leaf}

-- Such a rule says what its check says of every value that is there.
theorem exists_compileRule_leaf [Engine] (hentry : registry.resolve d.kind = some entry)
    (hparts : entry.parts (d.args field) = .ok [])
    (hbuild : entry.build (d.args field) [] = .ok (.leaf leaf))
    (hrequired : d.required = true →
      registry.resolve RuleOf.requiredName = some (.builtin .required)) :
    ∃ rule, registry.compileRule field (.descriptor d) = .ok rule ∧
      ∀ {value : Json} {failure : Option Failure}, value.isNull = false →
        (d.required = true → value.isBlank = false) →
        (∀ context, leaf.verdict value context = .ofOption failure) →
        rule.Answers d.kind value failure := by
  refine ⟨_, by rw [compileRule_flat hentry hparts hrequired, hbuild]; rfl, ?_⟩
  intro value failure hnull hblank hverdict run record path
  rw [Run.rule_leaf run d leaf hnull hblank, run.checks_leaf (hverdict _)]

end Registry

end Rulebook
