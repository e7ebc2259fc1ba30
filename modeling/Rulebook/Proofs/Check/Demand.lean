import Rulebook.Check.TextRules

namespace Rulebook

-- What is asked of a value, and what is said where it is not so.
structure Demand where
  holds : Prop
  failure : Failure

-- Of demands in order, the first one that does not hold is reported.
inductive FirstBroken : List Demand → Option Failure → Prop
  | none : FirstBroken [] none
  | kept {demand : Demand} {rest : List Demand} {failure : Option Failure}
      (hkept : demand.holds) (hrest : FirstBroken rest failure) :
      FirstBroken (demand :: rest) failure
  | broken {demand : Demand} {rest : List Demand} (hbroken : ¬demand.holds) :
      FirstBroken (demand :: rest) (some demand.failure)

namespace FirstBroken

variable {demands others : List Demand} {failure other : Option Failure}

theorem eq_none_iff (h : FirstBroken demands failure) :
    failure = Option.none ↔ ∀ demand ∈ demands, demand.holds := by
  induction h with
  | none => simp
  | kept hkept _ ih => simp [ih, hkept]
  | broken hbroken => simp [hbroken]

theorem append (h : FirstBroken demands failure) (hother : FirstBroken others other) :
    FirstBroken (demands ++ others) (failure.or other) := by
  induction h with
  | none => exact hother
  | kept hkept _ ih => exact .kept hkept ih
  | broken hbroken => exact .broken hbroken

-- A demand that is made only where something is given.
theorem of_option {α : Type} {given : Option α} {holds : α → Prop} {failureOf : α → Failure}
    {breaks : α → Bool} (h : ∀ x ∈ given, breaks x = true ↔ ¬holds x) :
    FirstBroken (given.map fun x => ⟨holds x, failureOf x⟩).toList
      ((given.filter breaks).map failureOf) := by
  cases given with
  | none => exact .none
  | some x =>
      have hx := h x rfl
      rw [Option.filter_some, Option.map_some, Option.toList_some]
      by_cases hbreaks : breaks x = true
      · rw [if_pos hbreaks]
        exact .broken (hx.mp hbreaks)
      · rw [if_neg hbreaks]
        exact .kept (Classical.not_not.mp (mt hx.mpr hbreaks)) .none

-- There is one answer.
theorem unique (h : FirstBroken demands failure) (hother : FirstBroken demands other) :
    failure = other := by
  induction h with
  | none =>
      cases hother
      rfl
  | kept hkept _ ih =>
      cases hother with
      | kept _ hrest => exact ih hrest
      | broken hbroken => exact absurd hkept hbroken
  | broken hbroken =>
      cases hother with
      | kept hkept _ => exact absurd hkept hbroken
      | broken _ => rfl

end FirstBroken

-- A value is a text of a certain kind.
def Json.TextHas (P : String → Prop) (value : Json) : Prop :=
  ∃ s, value = .str s ∧ P s

@[simp] theorem Json.textHas_str {P : String → Prop} {s : String} :
    (Json.str s).TextHas P ↔ P s := by
  simp [TextHas]

end Rulebook
