import Mathlib.Data.List.Basic
import Rulebook.Proofs.Run.Agreement

namespace Rulebook

-- A check of a user that fails at a place and hands over no error.
def Place.Mute (run : Run) (place : Place) (check : Check) : Prop :=
  ∃ name answer, check = .foreign name answer ∧
    run.verdict place.path (answer place.value ⟨place.record, run.root, place.path⟩) = .nested []

namespace Run

-- The errors of a check at a place, if it fails there.
def outcome (run : Run) (place : Place) (check : String × Check) : Option (List FieldError) :=
  run.check check.1 place.value place.record place.path check.2

-- A check whose turn comes at a place: the value is there or asked for, and the checks
-- before it pass.
structure Asks (run : Run) (place : Place) (check : String × Check) : Prop where
  tried : place.skipped = false
  turn : ∃ before after, place.rule.checks = before ++ check :: after ∧
    ∀ other ∈ before, run.outcome place other = none

-- The checks that a run invokes from a place on, each with the place where it is invoked.
-- A check looks into its value only if it does not fail by itself.
inductive Invokes (run : Run) : Place → Place → String × Check → Prop
  | here {place : Place} {check : String × Check} (hasks : run.Asks place check) :
      Invokes run place place check
  | inside {place inner final : Place} {check last : String × Check}
      (hasks : run.Asks place check) (hown : place.failure? run check.2 = none)
      (hinner : inner ∈ place.inner run.indexed check.2)
      (hrest : Invokes run inner final last) : Invokes run place final last

theorem outcome_ordinary (run : Run) (place : Place) {check : String × Check}
    (hcheck : check.2.IsOrdinary) :
    run.outcome place check =
      match place.failure? run check.2 with
      | some failure => some [run.resolve place.path check.1 failure]
      | none => ofParts ((place.inner run.indexed check.2).flatMap run.place) :=
  run.check_eq check.1 place.value place.record place.path hcheck

theorem outcome_eq_some_nil_iff (run : Run) (place : Place) (check : String × Check) :
    run.outcome place check = some [] ↔ place.Mute run check.2 := by
  obtain ⟨name, check⟩ := check
  have hordinary (hcheck : check.IsOrdinary) : run.outcome place (name, check) ≠ some [] := by
    rw [outcome_ordinary run place hcheck]
    split
    · simp
    · simp [ofParts]
  constructor
  · intro h
    cases check with
    | foreign own answer =>
        refine ⟨own, answer, rfl, ?_⟩
        simp only [outcome, Run.check] at h
        cases hverdict : run.verdict place.path
            (answer place.value ⟨place.record, run.root, place.path⟩) with
        | pass => simp [hverdict, ofVerdict] at h
        | fail failure => simp [hverdict, ofVerdict] at h
        | nested errors =>
            simp only [hverdict, ofVerdict, Option.some.injEq] at h
            rw [h]
    | _ => exact False.elim (hordinary trivial h)
  · rintro ⟨own, answer, rfl, hverdict⟩
    simp [outcome, Run.check, hverdict, ofVerdict]

theorem Asks.mem {run : Run} {place : Place} {check : String × Check}
    (hasks : run.Asks place check) : check ∈ place.rule.checks := by
  obtain ⟨-, before, after, hchecks, -⟩ := hasks
  rw [hchecks]
  exact List.mem_append_right before List.mem_cons_self

-- The check that fails when its turn comes speaks for the place.
theorem Asks.place_eq {run : Run} {place : Place} {check : String × Check}
    (hasks : run.Asks place check) {errors : List FieldError}
    (hfails : run.outcome place check = some errors) : run.place place = errors := by
  obtain ⟨htried, before, after, hchecks, hbefore⟩ := hasks
  rw [Run.place_eq, htried, if_neg Bool.false_ne_true, hchecks]
  have hfirst : (before ++ check :: after).findSome? (run.outcome place) = some errors := by
    rw [List.findSome?_append, List.findSome?_eq_none_iff.mpr hbefore, Option.none_or,
      List.findSome?_cons, hfails]
  exact congrArg (Option.getD · []) hfirst

-- If there are errors, then from a check whose turn comes.
theorem exists_asks_of_place_ne_nil {run : Run} {place : Place} (h : run.place place ≠ []) :
    ∃ check, run.Asks place check ∧ run.outcome place check = some (run.place place) := by
  cases hskip : place.skipped with
  | true =>
      rw [Run.place_eq, hskip] at h
      exact False.elim (h rfl)
  | false =>
      have hplace :
          run.place place = (place.rule.checks.findSome? (run.outcome place)).getD [] := by
        rw [Run.place_eq, hskip, if_neg Bool.false_ne_true]
        rfl
      cases hfirst : place.rule.checks.findSome? (run.outcome place) with
      | none =>
          rw [hplace, hfirst] at h
          exact False.elim (h rfl)
      | some errors =>
          obtain ⟨before, check, after, hchecks, hfails, hbefore⟩ :=
            List.findSome?_eq_some_iff.mp hfirst
          refine ⟨check, ⟨hskip, before, after, hchecks, hbefore⟩, ?_⟩
          rw [hplace, hfirst, hfails]
          rfl

-- A check that looks into a value of which nothing is reported finds nothing inside.
theorem Asks.inner_eq_nil {run : Run} {place : Place} {check : String × Check}
    (hasks : run.Asks place check) (hown : place.failure? run check.2 = none)
    (hquiet : run.place place = []) :
    ∀ inner ∈ place.inner run.indexed check.2, run.place inner = [] := by
  intro inner hinner
  -- Only an object or an array has places inside, and they fail by their errors only.
  have hordinary : check.2.IsOrdinary := by
    obtain ⟨name, check⟩ := check
    cases check with
    | leaf | custom | foreign => simp [Place.inner, Check.places] at hinner
    | object fields => trivial
    | array min max element => trivial
  have hparts := run.outcome_ordinary place hordinary
  simp only [hown] at hparts
  have hnone : (place.inner run.indexed check.2).flatMap run.place = [] := by
    by_contra herrors
    rw [ofParts_of_ne_nil herrors] at hparts
    exact herrors ((hasks.place_eq hparts).symm.trans hquiet)
  exact List.flatMap_eq_nil_iff.mp hnone inner hinner

-- From a place without errors on, nothing that is invoked has any.
theorem Invokes.outcome_eq_nil {run : Run} {place final : Place} {check : String × Check}
    (hinvokes : run.Invokes place final check) (hquiet : run.place place = [])
    {errors : List FieldError} (hfails : run.outcome final check = some errors) : errors = [] := by
  induction hinvokes with
  | here hasks => rw [← hasks.place_eq hfails, hquiet]
  | inside hasks hown hinner _ ih => exact ih (hasks.inner_eq_nil hown hquiet _ hinner) hfails

theorem Invokes.holds {run : Run} {P : Check → Prop} {place final : Place}
    {check : String × Check} (hinvokes : run.Invokes place final check)
    (hrule : place.rule.Every P) : P check.2 := by
  induction hinvokes with
  | here hasks => exact hrule.here hasks.mem
  | inside hasks _ hinner _ ih => exact ih (hrule.inside hasks.mem (Place.rule_mem_parts hinner))

-- A place has no errors exactly if no check that is invoked from it on has any.
theorem place_eq_nil_iff (run : Run) (place : Place) :
    run.place place = [] ↔
      ∀ final check, run.Invokes place final check →
        run.outcome final check = none ∨ final.Mute run check.2 := by
  constructor
  · intro hquiet final check hinvokes
    cases hfails : run.outcome final check with
    | none => exact .inl rfl
    | some errors =>
        rw [hinvokes.outcome_eq_nil hquiet hfails, outcome_eq_some_nil_iff] at hfails
        exact .inr hfails
  · intro h
    by_contra herrors
    obtain ⟨check, hasks, hfails⟩ := exists_asks_of_place_ne_nil herrors
    rcases h place check (.here hasks) with hnone | hmute
    · simp [hnone] at hfails
    · rw [← outcome_eq_some_nil_iff] at hmute
      exact herrors (Option.some.inj (hfails.symm.trans hmute))

end Run

end Rulebook
