import Rulebook.Proofs.Run.Places

namespace Rulebook

-- What holds for all checks of a validation, and what is made of the failure of a check.
structure Setting (ε : Type) where
  run : Run
  report : Place → (check : String) → Failure → ε

variable {ε δ : Type}

namespace Setting

def map (g : ε → δ) (s : Setting ε) : Setting δ :=
  { run := s.run
    report := fun place check failure => g (s.report place check failure) }

end Setting

mutual

-- What a place contributes to a report: nothing if its value is missing and not asked
-- for, and else what comes of trying its checks in order.
inductive Contributes (s : Setting ε) : Place → List ε → Prop
  | skipped {place : Place} (hskip : place.skipped = true) : Contributes s place []
  | tried {place : Place} {errors : List ε} (hskip : place.skipped = false)
      (hchecks : Tries s place place.rule.checks errors) : Contributes s place errors

-- Only the first check that fails contributes. It fails by itself, or because the
-- places inside the value contribute something.
inductive Tries (s : Setting ε) : Place → List (String × Check) → List ε → Prop
  | passed {place : Place} : Tries s place [] []
  | next {place : Place} {check : String × Check} {rest : List (String × Check)}
      {errors : List ε} (hown : place.failure? s.run check.2 = none)
      (hinner : ContributeAll s (place.inner s.run.indexed check.2) [])
      (hrest : Tries s place rest errors) : Tries s place (check :: rest) errors
  | failed {place : Place} {check : String × Check} {rest : List (String × Check)}
      {failure : Failure} (hown : place.failure? s.run check.2 = some failure) :
      Tries s place (check :: rest) [s.report place check.1 failure]
  | nested {place : Place} {check : String × Check} {rest : List (String × Check)}
      {errors : List ε} (hown : place.failure? s.run check.2 = none)
      (hinner : ContributeAll s (place.inner s.run.indexed check.2) errors)
      (herrors : errors ≠ []) : Tries s place (check :: rest) errors

-- The contributions of places, one after the other.
inductive ContributeAll (s : Setting ε) : List Place → List ε → Prop
  | nil : ContributeAll s [] []
  | cons {place : Place} {rest : List Place} {errors others : List ε}
      (hfirst : Contributes s place errors) (hrest : ContributeAll s rest others) :
      ContributeAll s (place :: rest) (errors ++ others)

end

theorem contributeAll_nil_iff {s : Setting ε} {places : List Place} :
    ContributeAll s places [] ↔ ∀ place ∈ places, Contributes s place [] := by
  induction places with
  | nil => exact ⟨fun _ place hmem => by simp at hmem, fun _ => .nil⟩
  | cons place rest ih =>
      constructor
      · intro h
        generalize herrors : ([] : List ε) = errors at h
        cases h with
        | cons hfirst hrest =>
            obtain ⟨rfl, rfl⟩ := List.append_eq_nil_iff.mp herrors.symm
            exact List.forall_mem_cons.mpr ⟨hfirst, ih.mp hrest⟩
      · intro h
        obtain ⟨hfirst, hrest⟩ := List.forall_mem_cons.mp h
        exact .cons hfirst (ih.mpr hrest)

theorem exists_contributeAll {s : Setting ε} {places : List Place}
    (h : ∀ place ∈ places, ∃ errors, Contributes s place errors) :
    ∃ errors, ContributeAll s places errors := by
  induction places with
  | nil => exact ⟨[], .nil⟩
  | cons place rest ih =>
      obtain ⟨errors, hfirst⟩ := h place List.mem_cons_self
      obtain ⟨others, hrest⟩ := ih fun other hmem => h other (List.mem_cons_of_mem _ hmem)
      exact ⟨errors ++ others, .cons hfirst hrest⟩

theorem exists_tries {s : Setting ε} {place : Place} {checks : List (String × Check)}
    (h : ∀ check ∈ checks, ∃ errors, ContributeAll s (place.inner s.run.indexed check.2) errors) :
    ∃ errors, Tries s place checks errors := by
  induction checks with
  | nil => exact ⟨[], .passed⟩
  | cons check rest ih =>
      cases hown : place.failure? s.run check.2 with
      | some failure => exact ⟨_, .failed hown⟩
      | none =>
          obtain ⟨errors, hinner⟩ := h check List.mem_cons_self
          cases errors with
          | cons error others => exact ⟨_, .nested hown hinner (by simp)⟩
          | nil =>
              obtain ⟨errors, hrest⟩ := ih fun other hmem => h other (List.mem_cons_of_mem _ hmem)
              exact ⟨errors, .next hown hinner hrest⟩

-- Every place contributes something, if only the empty list.
theorem exists_contributes (s : Setting ε) (place : Place) :
    ∃ errors, Contributes s place errors := by
  induction place using Place.induction s.run.indexed with
  | step place ih =>
      cases hskip : place.skipped with
      | true => exact ⟨[], .skipped hskip⟩
      | false =>
          have hinner : ∀ check ∈ place.rule.checks,
              ∃ errors, ContributeAll s (place.inner s.run.indexed check.2) errors :=
            fun check hcheck => exists_contributeAll (ih check hcheck)
          obtain ⟨errors, htries⟩ := exists_tries hinner
          exact ⟨errors, .tried hskip htries⟩

-- Which places contribute, and how much, does not depend on what is reported.
mutual

theorem Contributes.map {s : Setting ε} (g : ε → δ) {place : Place} {errors : List ε} :
    Contributes s place errors → Contributes (s.map g) place (errors.map g)
  | .skipped hskip => .skipped hskip
  | .tried hskip hchecks => .tried hskip (hchecks.map g)

theorem Tries.map {s : Setting ε} (g : ε → δ) {place : Place} {checks : List (String × Check)}
    {errors : List ε} :
    Tries s place checks errors → Tries (s.map g) place checks (errors.map g)
  | .passed => .passed
  | .next hown hinner hrest => .next hown (hinner.map g) (hrest.map g)
  | .failed hown => .failed hown
  | .nested hown hinner herrors => .nested hown (hinner.map g) (by simpa using herrors)

theorem ContributeAll.map {s : Setting ε} (g : ε → δ) {places : List Place} {errors : List ε} :
    ContributeAll s places errors → ContributeAll (s.map g) places (errors.map g)
  | .nil => .nil
  | .cons hfirst hrest => by
      rw [List.map_append]
      exact .cons (hfirst.map g) (hrest.map g)

end

-- A check that fails in two runs at the same places and in the same way.
def Check.Alike (run other : Run) (check : Check) : Prop :=
  ∀ value record path, check.failure? other value record path = check.failure? run value record path

-- Of a run only the failures of checks matter, and whether elements have their index.
mutual

theorem Contributes.congr {s t : Setting ε} (hreport : t.report = s.report)
    (hindexed : t.run.indexed = s.run.indexed) {place : Place} {errors : List ε}
    (hplace : place.rule.Every (Check.Alike s.run t.run)) :
    Contributes s place errors → Contributes t place errors
  | .skipped hskip => .skipped hskip
  | .tried hskip hchecks =>
      .tried hskip (hchecks.congr hreport hindexed (fun _ hcheck => hplace.here hcheck)
        fun _ hcheck _ hpart => hplace.inside hcheck hpart)

theorem Tries.congr {s t : Setting ε} (hreport : t.report = s.report)
    (hindexed : t.run.indexed = s.run.indexed) {place : Place} {checks : List (String × Check)}
    {errors : List ε} (hchecks : ∀ check ∈ checks, check.2.Alike s.run t.run)
    (hparts : ∀ check ∈ checks, ∀ part ∈ check.2.parts, part.Every (Check.Alike s.run t.run)) :
    Tries s place checks errors → Tries t place checks errors
  | .passed => .passed
  | .next hown hinner hrest => by
      obtain ⟨hcheck, hothers⟩ := List.forall_mem_cons.mp hchecks
      obtain ⟨hpart, hotherParts⟩ := List.forall_mem_cons.mp hparts
      refine .next ((hcheck ..).trans hown) ?_ (hrest.congr hreport hindexed hothers hotherParts)
      rw [hindexed]
      exact hinner.congr hreport hindexed fun _ hmem => hpart _ (Place.rule_mem_parts hmem)
  | .failed hown => by
      rw [← hreport]
      exact .failed ((List.forall_mem_cons.mp hchecks).1 .. |>.trans hown)
  | .nested hown hinner herrors => by
      obtain ⟨hcheck, -⟩ := List.forall_mem_cons.mp hchecks
      obtain ⟨hpart, -⟩ := List.forall_mem_cons.mp hparts
      refine .nested ((hcheck ..).trans hown) ?_ herrors
      rw [hindexed]
      exact hinner.congr hreport hindexed fun _ hmem => hpart _ (Place.rule_mem_parts hmem)

theorem ContributeAll.congr {s t : Setting ε} (hreport : t.report = s.report)
    (hindexed : t.run.indexed = s.run.indexed) {places : List Place} {errors : List ε}
    (hplaces : ∀ place ∈ places, place.rule.Every (Check.Alike s.run t.run)) :
    ContributeAll s places errors → ContributeAll t places errors
  | .nil => .nil
  | .cons hfirst hrest => by
      obtain ⟨hplace, hothers⟩ := List.forall_mem_cons.mp hplaces
      exact .cons (hfirst.congr hreport hindexed hplace) (hrest.congr hreport hindexed hothers)

end

end Rulebook
