import Mathlib.Data.List.Infix
import Rulebook.Proofs.Text.Trim

namespace Rulebook.Text

variable {sep : Char} {cs before after : List Char}

theorem cut_eq_none_of_notMem (h : sep ∉ cs) : cut sep cs = none := by
  induction cs with
  | nil => rfl
  | cons c cs ih =>
      simp only [List.mem_cons, not_or] at h
      rw [cut, if_neg (Ne.symm h.1), ih h.2]
      rfl

-- A text is cut at the first separator.
theorem eq_of_cut_eq_some (h : cut sep cs = some (before, after)) :
    cs = before ++ sep :: after ∧ sep ∉ before := by
  induction cs generalizing before with
  | nil => cases h
  | cons c cs ih =>
      rw [cut] at h
      split at h
      · rename_i heq
        cases h
        exact ⟨by rw [heq, List.nil_append], List.not_mem_nil⟩
      · rename_i hne
        obtain ⟨⟨front, back⟩, hcut, heq⟩ := Option.map_eq_some_iff.mp h
        cases heq
        obtain ⟨rfl, hfront⟩ := ih hcut
        refine ⟨rfl, ?_⟩
        simp only [List.mem_cons, not_or]
        exact ⟨Ne.symm hne, hfront⟩

theorem cutLast_eq_none_of_notMem (h : sep ∉ cs) : cutLast sep cs = none := by
  have hreverse : sep ∉ cs.reverse := fun hmem => h (List.mem_reverse.mp hmem)
  rw [cutLast, cut_eq_none_of_notMem hreverse]
  rfl

theorem cutLast_append_cons (h : sep ∉ after) (before : List Char) :
    cutLast sep (before ++ sep :: after) = some (before, after) := by
  have hreverse : sep ∉ after.reverse := fun hmem => h (List.mem_reverse.mp hmem)
  have hcut : (before ++ sep :: after).reverse = after.reverse ++ sep :: before.reverse := by
    simp only [List.reverse_append, List.reverse_cons, List.append_assoc, List.singleton_append]
  simp only [cutLast, hcut, cut_append_cons hreverse, Option.map_some, List.reverse_reverse]

-- A text is cut from behind at the last separator.
theorem eq_of_cutLast_eq_some (h : cutLast sep cs = some (before, after)) :
    cs = before ++ sep :: after ∧ sep ∉ after := by
  obtain ⟨⟨back, front⟩, hcut, heq⟩ := Option.map_eq_some_iff.mp h
  cases heq
  obtain ⟨hreverse, hback⟩ := eq_of_cut_eq_some hcut
  refine ⟨?_, fun hmem => hback (List.mem_reverse.mp hmem)⟩
  rw [← List.reverse_reverse cs, hreverse]
  simp only [List.reverse_append, List.reverse_cons, List.append_assoc, List.singleton_append]

-- What begins with a character that does not come before stands in what comes after.
theorem infix_append_iff {c : Char} {before : List Char} (h : c ∉ before) (cs after : List Char) :
    c :: cs <:+: before ++ after ↔ c :: cs <:+: after := by
  induction before with
  | nil => rfl
  | cons first before ih =>
      simp only [List.mem_cons, not_or] at h
      rw [List.cons_append, List.infix_cons_iff, ih h.2, or_iff_right]
      rintro ⟨rest, heq⟩
      exact h.1 (List.cons.inj heq).1

end Rulebook.Text
