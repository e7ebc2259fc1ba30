import Mathlib.Data.List.Infix
import Rulebook.Message.Template

namespace Rulebook.Template

-- Two percent signs in a row.
def doubled : List Char := ['%', '%']

theorem length_fillChars_le (cs : List Char) : (fillChars cs []).length ≤ cs.length := by
  generalize hargs : ([] : List String) = args
  fun_induction fillChars cs args with
  | case1 cs arg args ih => cases hargs
  | case2 cs ih =>
      have hrest := ih hargs
      simp only [List.length_cons]
      omega
  | case3 cs args ih =>
      have hrest := ih hargs
      simp only [List.length_cons]
      omega
  | case4 c cs args _ _ _ ih =>
      have hrest := ih hargs
      simp only [List.length_cons]
      omega
  | case5 args =>
      subst hargs
      exact Nat.le_refl 0

theorem doubled_infix_cons_iff {c : Char} {cs : List Char}
    (h : c = '%' → ∀ rest, cs ≠ '%' :: rest) :
    doubled <:+: c :: cs ↔ doubled <:+: cs := by
  rw [List.infix_cons_iff, or_iff_right]
  rintro ⟨rest, heq⟩
  cases heq
  exact h rfl rest rfl

-- Without arguments a template is its own text, unless two percent signs stand in a row
-- somewhere. The first two that do become one.
theorem fillChars_nil_eq_iff (cs : List Char) : fillChars cs [] = cs ↔ ¬doubled <:+: cs := by
  generalize hargs : ([] : List String) = args
  fun_induction fillChars cs args with
  | case1 cs arg args ih => cases hargs
  | case2 cs ih =>
      rw [doubled_infix_cons_iff (by simp), doubled_infix_cons_iff (by simp), ← ih rfl]
      simp
  | case3 cs args ih =>
      subst hargs
      have hinside : doubled <:+: '%' :: '%' :: cs := ⟨[], cs, rfl⟩
      have hlength := length_fillChars_le cs
      simp only [hinside, not_true_eq_false, iff_false, List.cons.injEq, true_and]
      intro heq
      rw [heq, List.length_cons] at hlength
      omega
  | case4 c cs args hmark hplain hdouble ih =>
      rw [doubled_infix_cons_iff, ← ih hargs]
      · simp
      · rintro rfl rest rfl
        exact hdouble rest rfl rfl
  | case5 args =>
      subst hargs
      simp [doubled]

end Rulebook.Template
