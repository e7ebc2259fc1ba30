import Rulebook.Proofs.Compile.Provenance

namespace Rulebook

open Outcome

namespace Failure

-- A value that is asked for is not there.
def missing : Failure :=
  ⟨.plain "required", .missingField⟩

end Failure

namespace Spec

-- Whether a rule asks for a value. A pipe rule does by the name of the check for that,
-- wherever it stands, and a descriptor by its flag or by its type.
def asksValue : Spec → Bool
  | pipe source => (Token.readAll source).any (·.name == RuleOf.requiredName)
  | descriptor d => d.required || d.kind == RuleOf.requiredName
  | values _ | pattern _ => false

-- The names of the checks of a rule, in the order in which they are declared.
def checkNames : Spec → List String
  | pipe source => (Token.readAll source).map (·.name)
  | descriptor d => d.kind :: if Registry.asksPresence d then [RuleOf.requiredName] else []
  | values _ => ["enum"]
  | pattern _ => ["string"]

theorem any_checkNames (spec : Spec) :
    spec.checkNames.any (· == RuleOf.requiredName) = spec.asksValue := by
  cases spec with
  | pipe source =>
      rw [checkNames, List.any_map]
      rfl
  | descriptor d =>
      by_cases hkind : d.kind = RuleOf.requiredName
      · simp [checkNames, asksValue, hkind]
      · cases hflag : d.required <;>
          simp [checkNames, asksValue, Registry.asksPresence, hkind, hflag]
  | values allowed => rfl
  | pattern source => rfl

end Spec

namespace RuleOf

-- A rule that looks for the value before all else, if it asks for one.
def LooksFirst (rule : Rule) : Prop :=
  rule.required = true → ∃ rest, rule.checks = (requiredName, .leaf .required) :: rest

theorem required_ofChecks (checks : List (String × Check)) :
    (ofChecks checks).required = (checks.map (·.1)).any (· == requiredName) := by
  rw [List.any_map]
  rfl

theorem looksFirst_ofChecks {checks : List (String × Check)}
    (h : ∀ check ∈ checks, check.1 = requiredName → check.2 = .leaf .required) :
    LooksFirst (ofChecks checks) := by
  intro hrequired
  obtain ⟨asking, hmem, hasking⟩ := List.any_eq_true.mp hrequired
  have hfilter : asking ∈ checks.filter isRequired := List.mem_filter.mpr ⟨hmem, hasking⟩
  cases hfirst : checks.filter isRequired with
  | nil => simp [hfirst] at hfilter
  | cons first rest =>
      obtain ⟨name, check⟩ := first
      have hhead : (name, check) ∈ checks.filter isRequired := by simp [hfirst]
      obtain ⟨hcheck, hname⟩ := List.mem_filter.mp hhead
      have hname : name = requiredName := by simpa [isRequired] using hname
      have hcheck : check = .leaf .required := h _ hcheck hname
      refine ⟨rest ++ checks.filter (!isRequired ·), ?_⟩
      simp only [ofChecks, hfirst, hname, hcheck, List.cons_append]

end RuleOf

namespace Registry

variable {registry : Registry}

theorem Builds.eq_required [Engine] (hrequired : registry.resolve RuleOf.requiredName =
      some (.builtin .required)) {args : Args} {rules : List (String × Rule)} {check : Check}
    (hname : args.rule = RuleOf.requiredName) (h : registry.Builds args rules check) :
    check = .leaf .required := by
  obtain ⟨entry, hentry, hbuild⟩ := h
  rw [hname, hrequired] at hentry
  cases hentry
  cases hbuild
  rfl

-- A compiled rule holds the checks that its declaration names, and no others.
theorem compileRule_checks [Engine] {field : String} {spec : Spec} {rule : Rule}
    (h : registry.compileRule field spec = .ok rule) :
    ∃ checks, rule = .ofChecks checks ∧ checks.map (·.1) = spec.checkNames := by
  cases spec with
  | pipe source =>
      rw [compileRule] at h
      obtain ⟨checks, hchecks, h⟩ := bind_eq_ok_iff.mp h
      cases h
      refine ⟨checks, rfl, ?_⟩
      rw [Spec.checkNames, ← List.forall₂_eq_eq_eq, List.forall₂_map_left_iff,
        List.forall₂_map_right_iff]
      exact (mapM_eq_ok_iff.mp hchecks).flip.imp fun _ _ htoken =>
        (buildsPlain_of_buildToken htoken).1
  | values allowed =>
      rw [compileRule] at h
      obtain ⟨check, hcheck, h⟩ := bind_eq_ok_iff.mp h
      cases h
      exact ⟨[check], rfl, congrArg (· :: []) (buildsPlain_of_buildPlain hcheck).1⟩
  | pattern source =>
      rw [compileRule] at h
      obtain ⟨check, hcheck, h⟩ := bind_eq_ok_iff.mp h
      cases h
      exact ⟨[check], rfl, congrArg (· :: []) (buildsPlain_of_buildPlain hcheck).1⟩
  | descriptor d =>
      obtain ⟨entry, parts, rules, check, presence, -, -, -, -, hpresence, rfl⟩ :=
        compileRule_descriptor_cases h
      refine ⟨_, rfl, ?_⟩
      obtain ⟨hasks, extra, rfl, hname, -⟩ | ⟨hasks, rfl⟩ := buildPresence_cases hpresence
      · simp [Spec.checkNames, hasks, hname]
      · simp [Spec.checkNames, hasks]

-- However a rule is declared, the flag of the compiled rule says whether it asks for a value.
theorem compileRule_required [Engine] {field : String} {spec : Spec} {rule : Rule}
    (h : registry.compileRule field spec = .ok rule) : rule.required = spec.asksValue := by
  obtain ⟨checks, rfl, hnames⟩ := compileRule_checks h
  rw [RuleOf.required_ofChecks, hnames, Spec.any_checkNames]

-- With the check of the catalogue for the presence of a value, every compiled rule that
-- asks for a value has that check first, whatever the other checks are.
theorem compileRule_looksFirst [Engine] (hrequired : registry.resolve RuleOf.requiredName =
      some (.builtin .required)) {field : String} {spec : Spec} {rule : Rule}
    (h : registry.compileRule field spec = .ok rule) : rule.LooksFirst := by
  have hplain {check : String × Check} (hbuilt : registry.BuildsPlain check) :
      check.1 = RuleOf.requiredName → check.2 = .leaf .required := by
    obtain ⟨args, hname, hbuilt⟩ := hbuilt
    exact fun hcheck => hbuilt.eq_required hrequired (hname.trans hcheck)
  refine compileRule_induction (motive := fun _ rule => rule.LooksFirst) ?_ ?_ h
  · exact fun _ checks hchecks => RuleOf.looksFirst_ofChecks fun check hcheck =>
      hplain (hchecks check hcheck)
  · intro field d entry parts rules check presence hentry _ _ hbuild hpresence
    refine RuleOf.looksFirst_ofChecks (List.forall_mem_cons.mpr ⟨fun hname => ?_, ?_⟩)
    · have hbuilt : registry.Builds (d.args field) rules check := ⟨entry, hentry, hbuild⟩
      exact hbuilt.eq_required hrequired hname
    · exact fun extra hextra => hplain (hpresence extra hextra)

-- So have the rules inside it.
theorem compileRule_every_looksFirst [Engine] (hrequired : registry.resolve RuleOf.requiredName =
      some (.builtin .required)) {field : String} {spec : Spec} {rule : Rule}
    (h : registry.compileRule field spec = .ok rule) :
    rule.Every fun check => ∀ part ∈ check.parts, part.LooksFirst := by
  refine (compileRule_holdsCompiled h).mono fun check hcheck part hpart => ?_
  obtain ⟨name, inner, hinner⟩ := hcheck part hpart
  exact compileRule_looksFirst hrequired hinner

-- The fields that ask for a value stay the same, and in order.
theorem compile_required [Engine] {schema : Schema} {rules : RuleSet}
    (h : registry.compile schema = .ok rules) :
    (rules.fields.filter (·.2.required)).map (·.1) =
      (schema.fields.filter (·.2.asksValue)).map (·.1) := by
  have hrel := compile_eq_ok_iff.mp h
  generalize schema.fields = declared, rules.fields = fields at hrel
  induction hrel with
  | nil => rfl
  | @cons field rule _ _ hfield _ ih =>
      obtain ⟨hname, hrule⟩ := hfield
      simp only [List.filter_cons, compileRule_required hrule]
      cases field.2.asksValue with
      | false => simpa using ih
      | true => simpa [hname] using ih

end Registry

end Rulebook
