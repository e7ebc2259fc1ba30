import Rulebook.Compile.Basic
import Rulebook.Proofs.Compile.Outcome
import Rulebook.Proofs.Rule.Nesting

namespace Rulebook

open Outcome

-- What the check of a descriptor is built from.
def Descriptor.args (d : Descriptor) (field : String) : Args :=
  { rule := d.kind, field, options := d.options }

namespace Registry

-- Compiles named rules in order, up to the first one that fails.
def compileParts [Engine] (registry : Registry) (parts : List (String × Spec)) :
    Except SetupError (List (String × Rule)) :=
  parts.mapM fun part => (registry.compileRule part.1 part.2).map (part.1, ·)

-- A check is built by the entry that its name resolves to.
def Builds [Engine] (registry : Registry) (args : Args) (rules : List (String × Rule))
    (check : Check) :
    Prop :=
  ∃ entry, registry.resolve args.rule = some entry ∧ entry.build args rules = .ok check

-- A check without parts, under the name by which its entry is found.
def BuildsPlain [Engine] (registry : Registry) (check : String × Check) : Prop :=
  ∃ args, args.rule = check.1 ∧ registry.Builds args [] check.2

variable {registry : Registry}

private theorem bind_pair (result : Except SetupError Rule) (name : String) :
    (do .ok (name, ← result)) = result.map (name, ·) := by
  cases result <;> rfl

theorem compile_eq_parts [Engine] (schema : Schema) :
    registry.compile schema = (registry.compileParts schema.fields).map RuleSet.mk := by
  unfold compile compileParts
  simp only [bind_pair]
  cases schema.fields.mapM fun part => (registry.compileRule part.1 part.2).map (part.1, ·) <;> rfl

theorem compileRule_descriptor [Engine] (field : String) (d : Descriptor) :
    registry.compileRule field (.descriptor d) = (do
      let entry ← registry.lookup d.kind
      let parts ← entry.parts (d.args field)
      let rules ← registry.compileParts parts
      let check ← entry.build (d.args field) rules
      let presence ← registry.buildPresence field d
      .ok (.ofChecks ((d.kind, check) :: presence))) := by
  rw [compileRule]
  unfold lookup Descriptor.args
  simp only [bind_pair]
  split
  · rename_i hentry
    simp [hentry, bind, Except.bind]
  · rename_i entry hentry
    simp only [hentry, bind, Except.bind]
    split
    · rename_i hparts
      simp [hparts]
    · rename_i parts hparts
      simp only [hparts, compileParts]
      rw [List.mapM_subtype (g := fun part => (registry.compileRule part.1 part.2).map (part.1, ·))
        (fun _ _ => rfl), List.unattach_attach]

theorem compileParts_eq_ok_iff [Engine] {parts : List (String × Spec)}
    {rules : List (String × Rule)} :
    registry.compileParts parts = .ok rules ↔
      List.Forall₂ (fun part rule => rule.1 = part.1 ∧
        registry.compileRule part.1 part.2 = .ok rule.2) parts rules := by
  unfold compileParts
  rw [mapM_eq_ok_iff]
  constructor <;> refine List.Forall₂.imp ?_ <;> rintro ⟨name, spec⟩ ⟨key, rule⟩ h
  · obtain ⟨compiled, hcompiled, heq⟩ := map_eq_ok_iff.mp h
    cases heq
    exact ⟨rfl, hcompiled⟩
  · obtain ⟨rfl, hrule⟩ := h
    exact map_eq_ok_iff.mpr ⟨rule, hrule, rfl⟩

theorem compile_eq_ok_iff [Engine] {schema : Schema} {rules : RuleSet} :
    registry.compile schema = .ok rules ↔
      List.Forall₂ (fun field rule => rule.1 = field.1 ∧
        registry.compileRule field.1 field.2 = .ok rule.2) schema.fields rules.fields := by
  rw [compile_eq_parts, map_eq_ok_iff, ← compileParts_eq_ok_iff]
  constructor
  · rintro ⟨fields, hfields, rfl⟩
    exact hfields
  · intro hfields
    exact ⟨rules.fields, hfields, rfl⟩

-- Fields keep their names and their order.
theorem compileParts_names [Engine] {parts : List (String × Spec)} {rules : List (String × Rule)}
    (h : registry.compileParts parts = .ok rules) : rules.map (·.1) = parts.map (·.1) :=
  names_eq (compileParts_eq_ok_iff.mp h)

theorem lookup_eq_ok_iff {name : String} {entry : Entry} :
    registry.lookup name = .ok entry ↔ registry.resolve name = some entry := by
  unfold lookup
  cases registry.resolve name <;> simp

theorem buildsPlain_of_buildToken [Engine] {field : String} {token : Token} {check : String × Check}
    (h : registry.buildToken field token = .ok check) :
    check.1 = token.name ∧ registry.BuildsPlain check := by
  obtain ⟨entry, hentry, h⟩ := bind_eq_ok_iff.mp h
  obtain ⟨built, hbuilt, h⟩ := bind_eq_ok_iff.mp h
  cases h
  exact ⟨rfl, token.args field entry, rfl, entry, lookup_eq_ok_iff.mp hentry, hbuilt⟩

theorem buildsPlain_of_buildPlain [Engine] {field name : String} {options : List (String × Json)}
    {check : String × Check} (h : registry.buildPlain field name options = .ok check) :
    check.1 = name ∧ registry.BuildsPlain check := by
  obtain ⟨entry, hentry, h⟩ := bind_eq_ok_iff.mp h
  obtain ⟨built, hbuilt, h⟩ := bind_eq_ok_iff.mp h
  cases h
  exact ⟨rfl, _, rfl, entry, lookup_eq_ok_iff.mp hentry, hbuilt⟩

-- A descriptor that asks for a value has one check for that, and any other has none.
theorem buildPresence_cases [Engine] {field : String} {d : Descriptor}
    {presence : List (String × Check)} (h : registry.buildPresence field d = .ok presence) :
    (asksPresence d = true ∧ ∃ check, presence = [check] ∧ check.1 = RuleOf.requiredName ∧
        registry.BuildsPlain check) ∨
      (asksPresence d = false ∧ presence = []) := by
  unfold buildPresence at h
  split at h
  · rename_i hasks
    obtain ⟨check, hcheck, rfl⟩ := map_eq_ok_iff.mp h
    obtain ⟨hname, hbuilt⟩ := buildsPlain_of_buildPlain hcheck
    exact .inl ⟨hasks, check, rfl, hname, hbuilt⟩
  · rename_i hasks
    cases h
    exact .inr ⟨Bool.eq_false_iff.mpr hasks, rfl⟩

theorem buildsPlain_of_buildPresence [Engine] {field : String} {d : Descriptor}
    {presence : List (String × Check)} (h : registry.buildPresence field d = .ok presence)
    {check : String × Check} (hmem : check ∈ presence) : registry.BuildsPlain check := by
  obtain ⟨-, built, rfl, -, hbuilt⟩ | ⟨-, rfl⟩ := buildPresence_cases h
  · rw [List.mem_singleton] at hmem
    exact hmem ▸ hbuilt
  · simp at hmem

-- A descriptor compiles if its type is known, its parts can be read and compiled, and its
-- checks can be built.
theorem compileRule_descriptor_cases [Engine] {field : String} {d : Descriptor} {rule : Rule}
    (h : registry.compileRule field (.descriptor d) = .ok rule) :
    ∃ entry parts rules check presence, registry.resolve d.kind = some entry ∧
      entry.parts (d.args field) = .ok parts ∧ registry.compileParts parts = .ok rules ∧
      entry.build (d.args field) rules = .ok check ∧
      registry.buildPresence field d = .ok presence ∧
      rule = .ofChecks ((d.kind, check) :: presence) := by
  rw [compileRule_descriptor] at h
  obtain ⟨entry, hentry, h⟩ := bind_eq_ok_iff.mp h
  obtain ⟨parts, hparts, h⟩ := bind_eq_ok_iff.mp h
  obtain ⟨rules, hrules, h⟩ := bind_eq_ok_iff.mp h
  obtain ⟨check, hcheck, h⟩ := bind_eq_ok_iff.mp h
  obtain ⟨presence, hpresence, h⟩ := bind_eq_ok_iff.mp h
  exact ⟨entry, parts, rules, check, presence, lookup_eq_ok_iff.mp hentry, hparts, hrules, hcheck,
    hpresence, (Except.ok.inj h).symm⟩

-- What holds of the rules without parts, and of the rule of a descriptor whenever it
-- holds of those of its parts, holds of every rule that compiles.
theorem compileRule_induction [Engine] {motive : Spec → Rule → Prop}
    (flat : ∀ spec checks, (∀ check ∈ checks, registry.BuildsPlain check) →
      motive spec (.ofChecks checks))
    (descriptor : ∀ field d entry parts rules check presence,
      registry.resolve d.kind = some entry → entry.parts (d.args field) = .ok parts →
      List.Forall₂ (fun part rule => rule.1 = part.1 ∧
        registry.compileRule part.1 part.2 = .ok rule.2 ∧ motive part.2 rule.2) parts rules →
      entry.build (d.args field) rules = .ok check →
      (∀ extra ∈ presence, registry.BuildsPlain extra) →
      motive (.descriptor d) (.ofChecks ((d.kind, check) :: presence)))
    {field : String} {spec : Spec} {rule : Rule}
    (h : registry.compileRule field spec = .ok rule) : motive spec rule := by
  -- Parts are lighter than the descriptor that holds them.
  induction hweight : spec.weight using Nat.strongRecOn generalizing field spec rule with
  | _ weight ih =>
      cases spec with
      | pipe source =>
          rw [compileRule] at h
          obtain ⟨checks, hchecks, h⟩ := bind_eq_ok_iff.mp h
          cases h
          refine flat _ _ fun check hmem => ?_
          obtain ⟨token, -, htoken⟩ := exists_of_mem_right (mapM_eq_ok_iff.mp hchecks) hmem
          exact (buildsPlain_of_buildToken htoken).2
      | values allowed =>
          rw [compileRule] at h
          obtain ⟨check, hcheck, h⟩ := bind_eq_ok_iff.mp h
          cases h
          refine flat _ _ fun other hmem => ?_
          rw [List.mem_singleton] at hmem
          exact (buildsPlain_of_buildPlain (hmem ▸ hcheck)).2
      | pattern source =>
          rw [compileRule] at h
          obtain ⟨check, hcheck, h⟩ := bind_eq_ok_iff.mp h
          cases h
          refine flat _ _ fun other hmem => ?_
          rw [List.mem_singleton] at hmem
          exact (buildsPlain_of_buildPlain (hmem ▸ hcheck)).2
      | descriptor d =>
          obtain ⟨entry, parts, rules, check, presence, hentry, hparts, hrules, hcheck, hpresence,
            rfl⟩ := compileRule_descriptor_cases h
          refine descriptor field d entry parts rules check presence hentry hparts ?_ hcheck
            fun extra => buildsPlain_of_buildPresence hpresence
          have hlt : ∀ part ∈ parts, part.2.weight < weight := fun part hmem =>
            hweight ▸ weight_part_lt hentry hparts hmem
          have hrel := compileParts_eq_ok_iff.mp hrules
          refine ((List.forall₂_and_left _ _).mpr ⟨hlt, hrel⟩).imp ?_
          rintro part rule ⟨hpart, hname, hrule⟩
          exact ⟨hname, hrule, ih _ hpart hrule rfl⟩

end Registry

end Rulebook
