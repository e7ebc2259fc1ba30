import Rulebook.Check.Basic

namespace Rulebook

namespace Check

-- The rules inside a check, in order.
def parts : Check → List Rule
  | object fields => (fields.getD []).map (·.2)
  | array _ _ element => element.toList
  | _ => []

-- The names of the fields that a check declares for the values it looks into.
def fieldNames : Check → List String
  | object fields => (fields.getD []).map (·.1)
  | _ => []

end Check

namespace RuleOf

theorem sizeOf_part_lt_check {part : Rule} {check : Check} (hpart : part ∈ check.parts) :
    sizeOf part < sizeOf check := by
  cases check with
  | leaf | custom | foreign => simp [Check.parts] at hpart
  | object fields =>
      cases fields with
      | none => simp [Check.parts] at hpart
      | some fields =>
          simp only [Check.parts, Option.getD_some, List.mem_map] at hpart
          obtain ⟨⟨name, rule⟩, hmem, rfl⟩ := hpart
          have hlt := List.sizeOf_lt_of_mem hmem
          simp only [Check.object.sizeOf_spec, Option.some.sizeOf_spec, Prod.mk.sizeOf_spec] at *
          omega
  | array min max element =>
      simp only [Check.parts, Option.mem_toList] at hpart
      subst hpart
      simp only [Check.array.sizeOf_spec, Option.some.sizeOf_spec]
      omega

theorem sizeOf_part_lt {part rule : Rule} {check : String × Check} (hcheck : check ∈ rule.checks)
    (hpart : part ∈ check.2.parts) : sizeOf part < sizeOf rule := by
  obtain ⟨checks, required⟩ := rule
  obtain ⟨name, check⟩ := check
  have hlist := List.sizeOf_lt_of_mem hcheck
  have hinner := sizeOf_part_lt_check hpart
  simp only [RuleOf.mk.sizeOf_spec, Prod.mk.sizeOf_spec] at *
  omega

-- Rules are finite trees: what passes from the parts of a rule to the rule holds of
-- every rule.
theorem induction {motive : Rule → Prop}
    (step : ∀ rule : Rule,
      (∀ check ∈ rule.checks, ∀ part ∈ check.2.parts, motive part) → motive rule)
    (rule : Rule) : motive rule :=
  step rule fun _ hcheck part hpart =>
    have := sizeOf_part_lt hcheck hpart
    induction step part
termination_by sizeOf rule

-- A property of checks that holds of the checks of a rule and, at any depth, of
-- those of its parts.
inductive Every (P : Check → Prop) : Rule → Prop
  | intro {rule : Rule} (checks : ∀ check ∈ rule.checks, P check.2)
      (parts : ∀ check ∈ rule.checks, ∀ part ∈ check.2.parts, Every P part) : Every P rule

namespace Every

variable {P Q : Check → Prop}

theorem here {rule : Rule} (h : Every P rule) {check : String × Check}
    (hcheck : check ∈ rule.checks) : P check.2 := by
  cases h with
  | intro checks parts => exact checks check hcheck

theorem inside {rule part : Rule} (h : Every P rule) {check : String × Check}
    (hcheck : check ∈ rule.checks) (hpart : part ∈ check.2.parts) : Every P part := by
  cases h with
  | intro checks parts => exact parts check hcheck part hpart

theorem and {rule : Rule} (hp : Every P rule) (hq : Every Q rule) :
    Every (fun check => P check ∧ Q check) rule := by
  induction hp with
  | intro checks parts ih =>
      refine .intro (fun check hcheck => ⟨checks check hcheck, hq.here hcheck⟩) ?_
      intro check hcheck part hpart
      exact ih check hcheck part hpart (hq.inside hcheck hpart)

theorem mono {rule : Rule} (himp : ∀ check, P check → Q check) (h : Every P rule) :
    Every Q rule := by
  induction h with
  | intro checks parts ih => exact .intro (fun check hcheck => himp _ (checks check hcheck)) ih

end Every

end RuleOf

end Rulebook
