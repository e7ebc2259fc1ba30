import Rulebook.Proofs.Run.Consulted
import Rulebook.Proofs.Run.Invoked

namespace Rulebook

namespace Run

-- The checks that a validation tries from a place on, those included that checks of users
-- have it try on values of their own.
inductive Occurs (run : Run) : Place → Place → String × Check → Prop
  | here {place : Place} {check : String × Check} (hasks : run.Asks place check) :
      Occurs run place place check
  | inside {place inner final : Place} {check last : String × Check}
      (hasks : run.Asks place check) (hown : place.failure? run check.2 = none)
      (hinner : inner ∈ place.inner run.indexed check.2)
      (hrest : Occurs run inner final last) : Occurs run place final last
  | consulted {place inner final : Place} {check last : String × Check}
      (hasks : run.Asks place check) {places : List Place}
      (hplaces : places ∈ run.consults place check.2) (hinner : inner ∈ places)
      (hrest : Occurs run inner final last) : Occurs run place final last

-- A check that hands on errors itself once it was handed any.
def Heeds (run : Run) (place : Place) (check : String × Check) : Prop :=
  ∀ places ∈ run.consults place check.2, places.flatMap run.place ≠ [] →
    ∃ errors, errors ≠ [] ∧ run.outcome place check = some errors

variable {run : Run} {place final : Place} {check : String × Check}

theorem Invokes.occurs (h : run.Invokes place final check) : run.Occurs place final check := by
  induction h with
  | here hasks => exact .here hasks
  | inside hasks hown hinner _ ih => exact .inside hasks hown hinner ih

theorem Occurs.outcome_eq_nil (hoccurs : run.Occurs place final check)
    (hheeds : ∀ other last, run.Occurs place other last → run.Heeds other last)
    (hquiet : run.place place = []) {errors : List FieldError}
    (hfails : run.outcome final check = some errors) : errors = [] := by
  induction hoccurs with
  | here hasks => exact Invokes.outcome_eq_nil (.here hasks) hquiet hfails
  | @inside place inner final check last hasks hown hinner _ ih =>
      refine ih (fun other last hother => hheeds other last ?_) ?_ hfails
      · exact .inside hasks hown hinner hother
      · exact hasks.inner_eq_nil hown hquiet inner hinner
  | @consulted place inner final check last hasks places hplaces hinner _ ih =>
      refine ih (fun other last hother => hheeds other last ?_) ?_ hfails
      · exact .consulted hasks hplaces hinner hother
      · -- If the places had errors, the check would have failed with some at the place.
        by_contra herrors
        have hhanded : places.flatMap run.place ≠ [] := fun hnone =>
          herrors (List.flatMap_eq_nil_iff.mp hnone inner hinner)
        obtain ⟨others, hothers, hown⟩ := hheeds place check (.here hasks) places hplaces hhanded
        exact hothers ((hasks.place_eq hown).symm.trans hquiet)

theorem Occurs.holds {P : Check → Prop} (hoccurs : run.Occurs place final check)
    (hrule : place.rule.Throughout P) : P check.2 := by
  induction hoccurs with
  | here hasks => exact hrule.here hasks.mem
  | inside hasks _ hinner _ ih => exact ih (hrule.inside hasks.mem (Place.rule_mem_parts hinner))
  | consulted hasks hplaces hinner _ ih =>
      exact ih (hrule.asked hasks.mem (asks_of_mem_consults hplaces hinner))

-- Where no check keeps to itself what it was handed, a place has no errors exactly if no check
-- that is tried from it on has any.
theorem place_eq_nil_iff_of_heeds
    (hheeds : ∀ other last, run.Occurs place other last → run.Heeds other last) :
    run.place place = [] ↔
      ∀ final check, run.Occurs place final check →
        run.outcome final check = none ∨ final.Mute run check.2 := by
  constructor
  · intro hquiet final check hoccurs
    cases hfails : run.outcome final check with
    | none => exact .inl rfl
    | some errors =>
        rw [hoccurs.outcome_eq_nil hheeds hquiet hfails, outcome_eq_some_nil_iff] at hfails
        exact .inr hfails
  · intro h
    rw [place_eq_nil_iff]
    exact fun final check hinvokes => h final check hinvokes.occurs

end Run

end Rulebook
