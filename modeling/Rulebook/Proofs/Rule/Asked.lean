import Rulebook.Proofs.Rule.Nesting

namespace Rulebook

-- A rule that an inquiry has values tried against, whatever errors it is handed on the way.
inductive Inquiry.Asks {ρ α : Type} (rule : RuleOf ρ) : Inquiry ρ α → Prop
  | field {fields : List (String × RuleOf ρ)} {value : Json} {next : List FieldError → Inquiry ρ α}
      {name : String} (hfield : (name, rule) ∈ fields) : Asks rule (.object fields value next)
  | afterObject {fields : List (String × RuleOf ρ)} {value : Json}
      {next : List FieldError → Inquiry ρ α} (errors : List FieldError)
      (hnext : Asks rule (next errors)) : Asks rule (.object fields value next)
  | item {items : List Json} {next : List FieldError → Inquiry ρ α} :
      Asks rule (.items rule items next)
  | afterItems {other : RuleOf ρ} {items : List Json} {next : List FieldError → Inquiry ρ α}
      (errors : List FieldError) (hnext : Asks rule (next errors)) :
      Asks rule (.items other items next)

-- A rule that a check of a user brings with it, for some value in some place.
def Check.Asks (check : Check) (rule : Rule) : Prop :=
  match check with
  | .custom _ (.predicate holds) options _ _ =>
      ∃ value context, (holds value options context).Asks rule
  | .foreign _ answer => ∃ value context, (answer value context).Asks rule
  | _ => False

namespace RuleOf

-- A property of checks that holds of the checks of a rule and, at any depth, of those of its
-- parts and of those that its checks bring with them.
inductive Throughout (P : Check → Prop) : Rule → Prop
  | intro {rule : Rule} (checks : ∀ check ∈ rule.checks, P check.2)
      (parts : ∀ check ∈ rule.checks, ∀ part ∈ check.2.parts, Throughout P part)
      (asked : ∀ check ∈ rule.checks, ∀ other, check.2.Asks other → Throughout P other) :
      Throughout P rule

namespace Throughout

variable {P Q : Check → Prop} {rule : Rule} {check : String × Check}

theorem here (h : Throughout P rule) (hcheck : check ∈ rule.checks) : P check.2 := by
  cases h with
  | intro checks parts asked => exact checks check hcheck

theorem inside {part : Rule} (h : Throughout P rule) (hcheck : check ∈ rule.checks)
    (hpart : part ∈ check.2.parts) : Throughout P part := by
  cases h with
  | intro checks parts asked => exact parts check hcheck part hpart

theorem asked {other : Rule} (h : Throughout P rule) (hcheck : check ∈ rule.checks)
    (hother : check.2.Asks other) : Throughout P other := by
  cases h with
  | intro checks parts asked => exact asked check hcheck other hother

-- It is enough to look at a rule and its parts, if the checks there bring only such rules.
theorem of_every (h : Every (fun check => P check ∧ ∀ other, check.Asks other → Throughout P other)
    rule) : Throughout P rule := by
  induction h with
  | intro checks parts ih =>
      exact .intro (fun check hcheck => (checks check hcheck).1) ih
        fun check hcheck => (checks check hcheck).2

-- A rule of one check, with no parts.
theorem of_single (hrule : rule.checks = [check]) (h : P check.2) (hparts : check.2.parts = [])
    (hasked : ∀ other, check.2.Asks other → Throughout P other) : Throughout P rule := by
  refine .of_every (.intro (fun entry hentry => ?_) fun entry hentry part hpart => ?_)
  · obtain rfl := List.mem_singleton.mp (hrule ▸ hentry)
    exact ⟨h, hasked⟩
  · obtain rfl := List.mem_singleton.mp (hrule ▸ hentry)
    simp [hparts] at hpart

end Throughout

end RuleOf

end Rulebook
