import Rulebook.Proofs.Run.Reference

namespace Rulebook

namespace Run

def setting (run : Run) : Setting FieldError :=
  { run
    report := fun place check failure => run.resolve place.path check failure }

theorem ofParts_eq_none_iff {errors : List FieldError} : ofParts errors = none ↔ errors = [] := by
  cases errors <;> simp [ofParts]

theorem ofParts_of_ne_nil {errors : List FieldError} (h : errors ≠ []) :
    ofParts errors = some errors := by
  simp [ofParts, h]

-- The step of a run in the words of the reference.
theorem check_ordinary (run : Run) {name : String} {place : Place} {check : Check}
    (hcheck : check.IsOrdinary) :
    run.check name place.value place.record place.path check =
      match place.failure? run.setting.run check with
      | some failure => some [run.setting.report place name failure]
      | none => ofParts ((place.inner run.setting.run.indexed check).flatMap run.place) :=
  run.check_eq name place.value place.record place.path hcheck

end Run

-- What the reference contributes, a run over ordinary checks finds. The induction is on
-- how the contribution comes about.
mutual

theorem Contributes.eq_run {run : Run} {place : Place} {errors : List FieldError}
    (hrule : place.rule.Every Check.IsOrdinary) :
    Contributes run.setting place errors → run.place place = errors
  | .skipped hskip => by simp [Run.place_eq, hskip]
  | .tried hskip hchecks => by
      rw [Run.place_eq, hskip, if_neg Bool.false_ne_true]
      exact hchecks.eq_run fun check hcheck =>
        ⟨hrule.here hcheck, fun part hpart => hrule.inside hcheck hpart⟩

theorem Tries.eq_run {run : Run} {place : Place} {checks : List (String × Check)}
    {errors : List FieldError}
    (hchecks : ∀ check ∈ checks, check.2.IsOrdinary ∧
      ∀ part ∈ check.2.parts, part.Every Check.IsOrdinary) :
    Tries run.setting place checks errors →
      (checks.findSome? fun check =>
        run.check check.1 place.value place.record place.path check.2).getD [] = errors
  | .passed => rfl
  | .next hown hinner hrest => by
      obtain ⟨⟨hcheck, hparts⟩, hlater⟩ := List.forall_mem_cons.mp hchecks
      have hnone := hinner.eq_run fun inner hmem => hparts _ (Place.rule_mem_parts hmem)
      rw [List.findSome?_cons, run.check_ordinary hcheck, hown, Run.ofParts_eq_none_iff.mpr hnone]
      exact hrest.eq_run hlater
  | .failed hown => by
      obtain ⟨⟨hcheck, -⟩, -⟩ := List.forall_mem_cons.mp hchecks
      rw [List.findSome?_cons, run.check_ordinary hcheck, hown]
      rfl
  | .nested hown hinner herrors => by
      obtain ⟨⟨hcheck, hparts⟩, -⟩ := List.forall_mem_cons.mp hchecks
      have hsome := hinner.eq_run fun inner hmem => hparts _ (Place.rule_mem_parts hmem)
      rw [List.findSome?_cons, run.check_ordinary hcheck, hown, hsome,
        Run.ofParts_of_ne_nil herrors]
      rfl

theorem ContributeAll.eq_run {run : Run} {places : List Place} {errors : List FieldError}
    (hplaces : ∀ place ∈ places, place.rule.Every Check.IsOrdinary) :
    ContributeAll run.setting places errors → places.flatMap run.place = errors
  | .nil => rfl
  | .cons hfirst hrest => by
      obtain ⟨hplace, hothers⟩ := List.forall_mem_cons.mp hplaces
      rw [List.flatMap_cons, hfirst.eq_run hplace, hrest.eq_run hothers]

end

-- The places that a run can come to from a place, whatever the checks say.
inductive Reaches (indexed : Bool) : Place → Place → Prop
  | here {place : Place} : Reaches indexed place place
  | inside {place inner final : Place} {check : String × Check}
      (hskip : place.skipped = false) (hcheck : check ∈ place.rule.checks)
      (hinner : inner ∈ place.inner indexed check.2) (hrest : Reaches indexed inner final) :
      Reaches indexed place final

-- A place that is skipped or none of whose checks fails by itself.
def Place.Quiet (run : Run) (place : Place) : Prop :=
  place.skipped = true ∨ ∀ check ∈ place.rule.checks, place.failure? run check.2 = none

variable {ε : Type}

theorem tries_nil_iff {s : Setting ε} {place : Place} {checks : List (String × Check)} :
    Tries s place checks [] ↔ ∀ check ∈ checks, place.failure? s.run check.2 = none ∧
      ContributeAll s (place.inner s.run.indexed check.2) [] := by
  induction checks with
  | nil => exact ⟨fun _ check hmem => by simp at hmem, fun _ => .passed⟩
  | cons check rest ih =>
      rw [List.forall_mem_cons, ← ih]
      constructor
      · intro h
        cases h with
        | next hown hinner hrest => exact ⟨⟨hown, hinner⟩, hrest⟩
        | nested hown hinner herrors => exact False.elim (herrors rfl)
      · rintro ⟨⟨hown, hinner⟩, hrest⟩
        exact .next hown hinner hrest

theorem contributes_nil_iff {s : Setting ε} {place : Place} :
    Contributes s place [] ↔ place.skipped = true ∨ Tries s place place.rule.checks [] := by
  constructor
  · intro h
    cases h with
    | skipped hskip => exact .inl hskip
    | tried hskip hchecks => exact .inr hchecks
  · intro h
    cases hskip : place.skipped with
    | true => exact .skipped hskip
    | false => exact .tried hskip (h.resolve_left (by simp [hskip]))

theorem Reaches.quiet {s : Setting ε} {place final : Place}
    (hreach : Reaches s.run.indexed place final) (h : Contributes s place []) :
    final.Quiet s.run := by
  induction hreach with
  | here =>
      rcases contributes_nil_iff.mp h with hskip | hchecks
      · exact .inl hskip
      · exact .inr fun check hcheck => (tries_nil_iff.mp hchecks check hcheck).1
  | inside hskip hcheck hinner _ ih =>
      have hchecks := (contributes_nil_iff.mp h).resolve_left (by simp [hskip])
      exact ih (contributeAll_nil_iff.mp (tries_nil_iff.mp hchecks _ hcheck).2 _ hinner)

-- A place contributes nothing exactly if all that can be reached from it is quiet.
theorem contributes_nil_iff_quiet {s : Setting ε} {place : Place} :
    Contributes s place [] ↔
      ∀ final, Reaches s.run.indexed place final → final.Quiet s.run := by
  refine ⟨fun h final hreach => hreach.quiet h, fun h => ?_⟩
  induction place using Place.induction s.run.indexed with
  | step place ih =>
      cases hskip : place.skipped with
      | true => exact .skipped hskip
      | false =>
          have hown := (h place .here).resolve_left (by simp [hskip])
          refine .tried hskip (tries_nil_iff.mpr fun check hcheck => ⟨hown check hcheck, ?_⟩)
          refine contributeAll_nil_iff.mpr fun inner hinner => ih check hcheck inner hinner ?_
          exact fun final hreach => h final (.inside hskip hcheck hinner hreach)

end Rulebook
