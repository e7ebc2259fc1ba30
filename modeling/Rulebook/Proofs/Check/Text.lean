import Rulebook.Proofs.Compile.Options
import Rulebook.Proofs.Validator.Descriptor

namespace Rulebook

open Outcome

variable {args : Args} {allowed : Bool} {parts : List (String × Rule)} {check : Check}

-- A flag that is written as a boolean or as a text.
def Args.IsOn (args : Args) (name : String) : Prop :=
  args.get? name = some (.bool true) ∨ args.get? name = some (.str "true")

-- An empty text is allowed by either of two names.
def Args.AllowsEmpty (args : Args) : Prop :=
  args.IsOn "allowEmpty" ∨ args.IsOn "empty"

namespace Builtin

theorem allowed_iff (h : allowEmpty args = .ok allowed) : allowed = true ↔ args.AllowsEmpty := by
  obtain ⟨first, hfirst, h⟩ := bind_eq_ok_iff.mp h
  have hon (name : String) : args.IsOn name ↔ args.flag name = .ok true :=
    Args.flag_eq_ok_true_iff.symm
  rw [Args.AllowsEmpty, hon, hon, hfirst]
  cases first with
  | true =>
      cases h
      simp
  | false =>
      rw [if_neg Bool.false_ne_true] at h
      simp [h]

-- What the catalogue builds for a text of a fixed form.
theorem exists_of_fixedText {name : String} {format : Pattern} {message : Option String}
    {leaf : Leaf} (h : fixedText name format message args = .ok leaf) :
    ∃ allowEmpty, (allowEmpty = true ↔ args.AllowsEmpty) ∧
      leaf = .text name { allowEmpty, format := some format, message } := by
  obtain ⟨allowEmpty, hallowed, h⟩ := bind_eq_ok_iff.mp h
  exact ⟨allowEmpty, allowed_iff hallowed, (Except.ok.inj h).symm⟩

end Builtin

theorem textOf_str (allowEmpty : Bool) (s : String) :
    textOf allowEmpty (.str s) =
      if s = "" then (if allowEmpty then .ok none else .error .emptyText) else .ok (some s) := by
  simp only [textOf, String.isEmpty_iff]

-- A text of a fixed form is a match, or empty where that is allowed.
theorem TextRules.verdict_format {allowEmpty : Bool} {format : Pattern} {message : Option String}
    {value : Json} :
    TextRules.verdict { allowEmpty, format := some format, message } value = .pass ↔
      ∃ s : String, value = .str s ∧
        (s = "" ∧ allowEmpty = true ∨ s ≠ "" ∧ format.isMatch s = true) := by
  cases value with
  | str s =>
      rw [verdict, textOf_str]
      by_cases hs : s = ""
      · cases allowEmpty <;> simp [hs]
      · by_cases hmatch : format.isMatch s = true <;>
          simp [hs, hmatch, broken, Option.filter, Verdict.ofOption]
  | _ => simp [verdict, textOf]

theorem Run.check_leaf_eq_none_iff (run : Run) (name : String) (value record : Json)
    (path : String) (leaf : Leaf) :
    run.check name value record path (.leaf leaf) = none ↔
      leaf.verdict value ⟨record, run.root, path⟩ = .pass := by
  rw [check]
  cases leaf.verdict value ⟨record, run.root, path⟩ <;> simp [ofVerdict]

-- A check passes the values of one kind and no others, wherever they stand.
def Check.PassesOnly (check : Check) (P : Json → Prop) : Prop :=
  ∀ (run : Run) (name : String) (value record : Json) (path : String),
    run.check name value record path check = none ↔ P value

theorem Check.passesOnly_leaf {leaf : Leaf} {P : Json → Prop}
    (h : ∀ value context, leaf.verdict value context = .pass ↔ P value) :
    (Check.leaf leaf).PassesOnly P := by
  intro run name value record path
  rw [Run.check_leaf_eq_none_iff, h]

end Rulebook
