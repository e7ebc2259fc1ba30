import Rulebook.Proofs.Session.Effect

namespace Rulebook

namespace Workspace

-- The workspace that steps lead to.
def after [Engine] (workspace : Workspace) (steps : List Step) : Workspace :=
  steps.foldl (fun workspace s => (workspace.step s).1) workspace

-- The steps that succeed, each in the workspace that those before it left.
def succeeding [Engine] (workspace : Workspace) : List Step → List Step
  | [] => []
  | s :: rest =>
      (if (workspace.step s).2.isOk then [s] else []) ++ succeeding (workspace.step s).1 rest

variable {workspace : Workspace} {s : Step}

theorem isOk_step [Engine] (workspace : Workspace) (s : Step) :
    (workspace.step s).2.isOk =
      (s.effect (workspace.lookup s) (workspace.lookupRules s)).isOk := by
  rw [step_eq]
  cases s.effect (workspace.lookup s) (workspace.lookupRules s) <;> rfl

-- Whatever a step may have written before it failed, it leaves everything as it was.
theorem step_of_not_isOk [Engine] (h : (workspace.step s).2.isOk = false) :
    (workspace.step s).1 = workspace := by
  rw [step_eq] at h ⊢
  cases heffect : s.effect (workspace.lookup s) (workspace.lookupRules s) with
  | error refusal => rfl
  | ok outcome =>
      rw [heffect] at h
      cases h

-- The steps of a session that fail can be left out: nothing else changes.
theorem runAll_succeeding [Engine] (workspace : Workspace) (steps : List Step) :
    workspace.after (workspace.succeeding steps) = workspace.after steps ∧
      workspace.runAll (workspace.succeeding steps) =
        (workspace.runAll steps).filter (·.isOk) := by
  induction steps generalizing workspace with
  | nil => exact ⟨rfl, rfl⟩
  | cons s rest ih =>
      obtain ⟨hafter, hanswers⟩ := ih (workspace.step s).1
      rw [succeeding, runAll]
      cases hok : (workspace.step s).2.isOk with
      | true =>
          rw [if_pos rfl, List.filter_cons_of_pos hok, ← hanswers]
          exact ⟨hafter, rfl⟩
      | false =>
          have hsame := step_of_not_isOk hok
          rw [if_neg Bool.false_ne_true, List.filter_cons_of_neg (by simp [hok]), ← hanswers,
            List.nil_append]
          rw [hsame] at hafter ⊢
          refine ⟨hafter.trans ?_, rfl⟩
          rw [after, after, List.foldl_cons, hsame]

end Workspace

end Rulebook
