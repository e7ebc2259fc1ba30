import Rulebook.Proofs.Session.Effect

namespace Rulebook

namespace Workspace

-- The names that something may have reached, of validators and of compiled rules.
structure Reach where
  validators : List String := []
  rules : List String := []

namespace Reach

-- Whether a step looks up what may have been reached.
def meets (reach : Reach) (s : Step) : Bool :=
  s.validator?.any reach.validators.contains || s.rules?.any reach.rules.contains

-- What a step keeps is reached if the step looked up what was. If it did not, and if it
-- succeeds, what it keeps takes the place of what was reached.
def next (reach : Reach) (s : Step) (succeeded : Bool) : Reach :=
  if reach.meets s then
    { validators := s.keeps?.toList ++ reach.validators
      rules := s.keepsRules?.toList ++ reach.rules }
  else if succeeded then
    { validators := reach.validators.filter (some · != s.keeps?)
      rules := reach.rules.filter (some · != s.keepsRules?) }
  else reach

variable {reach : Reach} {s : Step}

theorem meets_eq_false_iff :
    reach.meets s = false ↔
      (∀ v, s.validator? = some v → v ∉ reach.validators) ∧
        ∀ name, s.rules? = some name → name ∉ reach.rules := by
  rw [meets, Bool.or_eq_false_iff]
  refine and_congr ?_ ?_
  · cases s.validator? <;> simp
  · cases s.rules? <;> simp

end Reach

-- The answers of the steps that look up nothing that was reached.
def observed [Engine] (reach : Reach) (workspace : Workspace) :
    List Step → List (Option (Except Refusal Answer))
  | [] => []
  | s :: rest =>
      (if reach.meets s then none else some (workspace.step s).2) ::
        observed (reach.next s (workspace.step s).2.isOk) (workspace.step s).1 rest

-- Two workspaces that differ in nothing but what was reached.
structure AgreeOff (reach : Reach) (workspace other : Workspace) : Prop where
  validator : ∀ v, v ∉ reach.validators → other.validator v = workspace.validator v
  compiled : ∀ name, name ∉ reach.rules → other.compiled name = workspace.compiled name

variable {reach : Reach} {workspace other : Workspace} {s : Step}

theorem AgreeOff.effect_eq [Engine] (h : AgreeOff reach workspace other)
    (hmeets : reach.meets s = false) :
    s.effect (other.lookup s) (other.lookupRules s) =
      s.effect (workspace.lookup s) (workspace.lookupRules s) := by
  obtain ⟨hvalidator, hrules⟩ := Reach.meets_eq_false_iff.mp hmeets
  have hlookup : other.lookup s = workspace.lookup s := by
    rw [lookup, lookup]
    cases hv : s.validator? with
    | none => rfl
    | some v => exact h.validator v (hvalidator v hv)
  have hlookupRules : other.lookupRules s = workspace.lookupRules s := by
    rw [lookupRules, lookupRules]
    cases hname : s.rules? with
    | none => rfl
    | some name => exact h.compiled name (hrules name hname)
  rw [hlookup, hlookupRules]

-- A step that looks up what was reached may go either way. What it does stays within what
-- it keeps.
theorem AgreeOff.step_of_meets [Engine] (h : AgreeOff reach workspace other)
    (hmeets : reach.meets s = true) (succeeded : Bool) :
    AgreeOff (reach.next s succeeded) (workspace.step s).1 (other.step s).1 := by
  rw [Reach.next, if_pos hmeets]
  constructor
  · intro v hv
    rw [List.mem_append, not_or, Option.mem_toList] at hv
    rw [(step_frame _ s).1 v hv.1, (step_frame _ s).1 v hv.1, h.validator v hv.2]
  · intro name hname
    rw [List.mem_append, not_or, Option.mem_toList] at hname
    rw [(step_frame _ s).2 name hname.1, (step_frame _ s).2 name hname.1, h.compiled name hname.2]

-- Any other step does the same in both workspaces.
theorem AgreeOff.step_of_not_meets [Engine] (h : AgreeOff reach workspace other)
    (hmeets : reach.meets s = false) :
    (other.step s).2 = (workspace.step s).2 ∧
      AgreeOff (reach.next s (workspace.step s).2.isOk) (workspace.step s).1 (other.step s).1 := by
  rw [Reach.next, if_neg (by simp [hmeets]), step_eq other, step_eq workspace,
    h.effect_eq hmeets]
  cases heffect : s.effect (workspace.lookup s) (workspace.lookupRules s) with
  | error refusal => exact ⟨rfl, h⟩
  | ok outcome =>
      obtain ⟨change, answer⟩ := outcome
      obtain ⟨hkeeps, hrules⟩ := Step.effect_keeps heffect
      refine ⟨rfl, ?_, ?_⟩
      · intro v hv
        by_cases hname : change.validator? = some v
        · exact validator_apply_of_eq hname other
        · have hoff : v ∉ reach.validators := fun hmem => hv <| List.mem_filter.mpr
            ⟨hmem, bne_iff_ne.mpr fun heq => hname (hkeeps.trans heq.symm)⟩
          rw [validator_apply_of_ne hname, validator_apply_of_ne hname, h.validator v hoff]
      · intro name hn
        by_cases hname : change.rules? = some name
        · exact compiled_apply_of_eq hname other
        · have hoff : name ∉ reach.rules := fun hmem => hn <| List.mem_filter.mpr
            ⟨hmem, bne_iff_ne.mpr fun heq => hname (hrules.trans heq.symm)⟩
          rw [compiled_apply_of_ne hname, compiled_apply_of_ne hname, h.compiled name hoff]

-- From workspaces that agree off a reach, a session gives the same answers off the reach.
theorem AgreeOff.observed_eq [Engine] (h : AgreeOff reach workspace other) (steps : List Step) :
    observed reach other steps = observed reach workspace steps := by
  induction steps generalizing reach workspace other with
  | nil => rfl
  | cons s rest ih =>
      rw [observed, observed]
      cases hmeets : reach.meets s with
      | true =>
          have hnext : reach.next s (other.step s).2.isOk =
              reach.next s (workspace.step s).2.isOk := by
            rw [Reach.next, Reach.next, if_pos hmeets, if_pos hmeets]
          rw [hnext, ih (h.step_of_meets hmeets _), if_pos rfl, if_pos rfl]
      | false =>
          obtain ⟨hanswer, hrest⟩ := h.step_of_not_meets hmeets
          rw [hanswer, ih hrest]

-- A registration is felt by the validator that it is made on, by what is cloned from it
-- later and by what these compile later, and by nothing else: whatever the later steps are,
-- those that do not look up any of these answer as they would without it.
theorem observed_addRule [Engine] (workspace : Workspace) (v : String)
    (registration : Except Refusal Registration) (rest : List Step) :
    observed { validators := [v] } (workspace.step (.addRule v registration)).1 rest =
      observed { validators := [v] } workspace rest := by
  refine AgreeOff.observed_eq ⟨fun u hu => ?_, fun name _ => ?_⟩ rest
  · exact (step_frame _ _).1 u (by simpa [Step.keeps?, eq_comm] using hu)
  · exact (step_frame _ _).2 name (by simp [Step.keepsRules?])

end Workspace

end Rulebook
