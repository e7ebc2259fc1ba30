import Mathlib.Data.List.DropRight
import Mathlib.Data.List.TakeWhile
import Rulebook.Text.Blank
import Rulebook.Text.Split

namespace Rulebook.Text

theorem trimStart_idempotent (cs : List Char) : trimStart (trimStart cs) = trimStart cs :=
  List.dropWhile_idempotent isBlank cs

theorem trimEnd_idempotent (cs : List Char) : trimEnd (trimEnd cs) = trimEnd cs :=
  List.rdropWhile_idempotent isBlank cs

theorem trimEnd_cons (c : Char) (cs : List Char) :
    trimEnd (c :: cs) =
      if trimEnd cs = [] then (if isBlank c then [] else [c]) else c :: trimEnd cs := by
  simp only [trimEnd, trimStart, List.reverse_cons, List.dropWhile_append,
    List.reverse_eq_nil_iff, List.isEmpty_iff]
  split
  · simp only [List.dropWhile_cons, List.dropWhile_nil]
    split <;> rfl
  · rw [List.reverse_append, List.reverse_singleton, List.singleton_append]

-- A character that is not blank keeps all that is before it.
theorem trimEnd_append_cons {c : Char} (hc : isBlank c = false) (before after : List Char) :
    trimEnd (before ++ c :: after) = before ++ c :: trimEnd after := by
  induction before with
  | nil =>
      rw [List.nil_append, List.nil_append, trimEnd_cons]
      split
      · next hafter => simp [hc, hafter]
      · rfl
  | cons first before ih =>
      have hne : trimEnd (before ++ c :: after) ≠ [] := by
        rw [ih]
        simp
      rw [List.cons_append, trimEnd_cons, if_neg hne, ih, List.cons_append]

-- It does not matter which end is trimmed first.
theorem trimStart_trimEnd (cs : List Char) : trimStart (trimEnd cs) = trimEnd (trimStart cs) := by
  induction cs with
  | nil => rfl
  | cons c cs ih =>
      rw [trimEnd_cons]
      cases hc : isBlank c with
      | true =>
          have hstart : trimStart (c :: cs) = trimStart cs := List.dropWhile_cons_of_pos hc
          rw [hstart, ← ih]
          split
          · next hcs =>
              rw [hcs]
              rfl
          · exact List.dropWhile_cons_of_pos hc
      | false =>
          have hstart (rest : List Char) : trimStart (c :: rest) = c :: rest :=
            List.dropWhile_cons_of_neg (by simp [hc])
          rw [hstart, trimEnd_cons, hc]
          split
          · exact hstart []
          · exact hstart (trimEnd cs)

theorem trimChars_trimEnd (cs : List Char) : trimChars (trimEnd cs) = trimChars cs := by
  rw [trimChars, trimStart_trimEnd, trimEnd_idempotent, trimChars]

theorem trimChars_idempotent (cs : List Char) : trimChars (trimChars cs) = trimChars cs := by
  rw [trimChars, trimChars, trimStart_trimEnd, trimStart_idempotent, trimEnd_idempotent]

theorem trimChars_eq_nil_iff {cs : List Char} : trimChars cs = [] ↔ cs.all isBlank = true := by
  have hstart {cs : List Char} : trimStart cs = [] ↔ ∀ c ∈ cs, isBlank c = true :=
    List.dropWhile_eq_nil_iff
  have hend {cs : List Char} : trimEnd cs = [] ↔ ∀ c ∈ cs, isBlank c = true := by
    rw [trimEnd, List.reverse_eq_nil_iff, hstart]
    simp only [List.mem_reverse]
  rw [List.all_eq_true, trimChars, hend, ← hstart, trimStart_idempotent, hstart]

theorem trim_idempotent (s : String) : trim (trim s) = trim s := by
  rw [trim, trim, String.toList_ofList, trimChars_idempotent]

theorem trimChars_of_trim {s : String} (h : trim s = s) : trimChars s.toList = s.toList := by
  rw [trim] at h
  rw [← String.toList_ofList (l := trimChars s.toList), h]

-- What is left of a text that is not blank is not blank.
theorem allBlank_trim (s : String) : allBlank (trim s) = allBlank s := by
  rw [Bool.eq_iff_iff, allBlank, allBlank, ← trimChars_eq_nil_iff, ← trimChars_eq_nil_iff, trim,
    String.toList_ofList, trimChars_idempotent]

-- Trimming stops at a character that is not blank.
theorem trimChars_around {c : Char} (hc : isBlank c = false) (before after : List Char) :
    trimChars (before ++ c :: after) = trimStart before ++ c :: trimEnd after := by
  have hstart : trimStart (before ++ c :: after) = trimStart before ++ c :: after := by
    rw [trimStart, List.dropWhile_append, trimStart]
    cases before.dropWhile isBlank with
    | nil => exact List.dropWhile_cons_of_neg (by simp [hc])
    | cons first rest => rfl
  rw [trimChars, hstart, trimEnd_append_cons hc]

theorem trimChars_append_cons {c : Char} (hc : isBlank c = false) {before : List Char}
    (hbefore : trimChars before = before) (after : List Char) :
    trimChars (before ++ c :: after) = before ++ c :: trimEnd after := by
  have hkept : trimStart before = before := by
    rw [← hbefore, trimChars, ← trimStart_trimEnd, trimStart_idempotent]
  rw [trimChars_around hc, hkept]

theorem trimChars_trimStart (cs : List Char) : trimChars (trimStart cs) = trimChars cs := by
  rw [trimChars, trimStart_idempotent, trimChars]

-- A text with blanks before and after it.
def Padded (text cs : List Char) : Prop :=
  ∃ before after, cs = before ++ (text ++ after) ∧ (∀ c ∈ before, isBlank c = true) ∧
    ∀ c ∈ after, isBlank c = true

theorem trimChars_of_padded {text cs : List Char} (h : Padded text cs) :
    trimChars cs = trimChars text := by
  obtain ⟨before, after, rfl, hbefore, hafter⟩ := h
  have hstart : trimStart (before ++ (text ++ after)) = trimStart (text ++ after) :=
    List.dropWhile_append_of_pos hbefore
  have hend : trimEnd (text ++ after) = trimEnd text := by
    rw [trimEnd, trimStart, List.reverse_append,
      List.dropWhile_append_of_pos fun c hc => hafter c (List.mem_reverse.mp hc), ← trimStart,
      ← trimEnd]
  rw [trimChars, hstart, ← trimStart_trimEnd, hend, trimStart_trimEnd, trimChars]

theorem notMem_of_padded {c : Char} {text cs : List Char} (h : Padded text cs)
    (hc : isBlank c = false) (htext : c ∉ text) : c ∉ cs := by
  obtain ⟨before, after, rfl, hbefore, hafter⟩ := h
  have hnot {part : List Char} (hpart : ∀ c ∈ part, isBlank c = true) : c ∉ part :=
    fun hmem => Bool.false_ne_true (hc.symm.trans (hpart c hmem))
  simp only [List.mem_append, not_or]
  exact ⟨hnot hbefore, htext, hnot hafter⟩

variable {sep : Char} {before : List Char}

theorem pieces_ne_nil (sep : Char) (cs : List Char) : pieces sep cs ≠ [] := by
  cases cs with
  | nil => exact List.cons_ne_nil _ _
  | cons c cs =>
      rw [pieces]
      split
      · exact List.cons_ne_nil _ _
      · split <;> exact List.cons_ne_nil _ _

theorem pieces_of_notMem (h : sep ∉ before) : pieces sep before = [before] := by
  induction before with
  | nil => rfl
  | cons c cs ih =>
      simp only [List.mem_cons, not_or] at h
      rw [pieces, if_neg (Ne.symm h.1), ih h.2]

theorem pieces_append_cons (h : sep ∉ before) (after : List Char) :
    pieces sep (before ++ sep :: after) = before :: pieces sep after := by
  induction before with
  | nil => rw [List.nil_append, pieces, if_pos rfl]
  | cons c cs ih =>
      simp only [List.mem_cons, not_or] at h
      rw [List.cons_append, pieces, if_neg (Ne.symm h.1), ih h.2]

theorem cut_append_cons (h : sep ∉ before) (after : List Char) :
    cut sep (before ++ sep :: after) = some (before, after) := by
  induction before with
  | nil => rw [List.nil_append, cut, if_pos rfl]
  | cons c cs ih =>
      simp only [List.mem_cons, not_or] at h
      rw [List.cons_append, cut, if_neg (Ne.symm h.1), ih h.2]
      rfl

end Rulebook.Text
