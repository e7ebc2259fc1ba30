import Rulebook.Check.Format

namespace Rulebook

namespace Text

-- Two characters that are equal but for case are so in both directions.
theorem mem_caseVariants_symm {m n : Nat} (h : n ∈ caseVariants m) : m ∈ caseVariants n := by
  rw [caseVariants, List.mem_append, List.mem_flatMap, List.mem_flatMap] at h ⊢
  rcases h with ⟨⟨first, last, step, distance⟩, hpair, h⟩ | ⟨orbit, horbit, h⟩
  · refine .inl ⟨_, hpair, ?_⟩
    simp only [List.mem_append, List.mem_ite_nil_right, List.mem_singleton] at h ⊢
    rcases h with ⟨⟨hfirst, hlast, hstep⟩, rfl⟩ | ⟨⟨hfirst, hlast, hstep⟩, rfl⟩
    · right
      rw [Nat.add_sub_cancel]
      exact ⟨⟨Nat.add_le_add_right hfirst _, Nat.add_le_add_right hlast _, hstep⟩, rfl⟩
    · left
      exact ⟨⟨by omega, by omega, hstep⟩, by omega⟩
  · refine .inr ⟨orbit, horbit, ?_⟩
    simp only [List.mem_ite_nil_right, List.contains_iff_mem, List.mem_filter, bne_iff_ne] at h ⊢
    exact ⟨h.2.1, h.1, h.2.2.symm⟩

end Text

namespace CharClass

variable {c d : Char}

theorem mem_single : (single d).mem c = true ↔ c = d := by
  rw [single, mem, Bool.and_eq_true, decide_eq_true_eq, decide_eq_true_eq]
  exact ⟨fun h => Char.le_antisymm h.2 h.1, fun h => h ▸ ⟨Char.le_refl c, Char.le_refl c⟩⟩

theorem mem_join (a b : CharClass) (c : Char) : (a.join b).mem c = (a.mem c || b.mem c) := by
  unfold join
  split
  · rfl
  · rw [mem, Bool.or_false]
  · rfl

theorem mem_ofChars {cs : List Char} : (ofChars cs).mem c = true ↔ c ∈ cs := by
  have hfold (set : CharClass) : (cs.foldl (fun set d => set.join (single d)) set).mem c = true ↔
      set.mem c = true ∨ c ∈ cs := by
    induction cs generalizing set with
    | nil => simp
    | cons d cs ih =>
        rw [List.foldl_cons, ih, mem_join, Bool.or_eq_true, mem_single, List.mem_cons, or_assoc]
  rw [ofChars, hfold]
  simp [mem]

theorem asciiAlnum_mem (c : Char) : asciiAlnum.mem c = c.isAlphanum := by
  have hupper : (range 'A' 'Z').mem c = c.isUpper := (Bool.decide_and _ _).symm
  have hlower : (range 'a' 'z').mem c = c.isLower := rfl
  have hdigit : asciiDigit.mem c = c.isDigit := rfl
  rw [asciiAlnum, mem, asciiLetter, mem, hupper, hlower, hdigit, Bool.or_comm c.isLower]
  rfl

-- The code point of a character that is read as another one is that of the other one.
theorem eq_toNat_of_ofNat_eq {n : Nat} (h : Char.ofNat n = d) (hd : 0 < d.toNat) :
    n = d.toNat := by
  subst h
  by_cases hvalid : n.isValidChar
  · have hchar : Char.ofNat n = Char.ofNatAux n hvalid := dif_pos hvalid
    rw [hchar]
    rfl
  · have hzero : Char.ofNat n = '\x00' := dif_neg hvalid
    rw [hzero] at hd
    cases hd

-- A character without regard to case.
theorem mem_fold_single (hd : 0 < d.toNat) : (fold (single d)).mem c = true ↔
    c = d ∨ c.toNat ∈ Text.caseVariants d.toNat := by
  rw [mem, Bool.or_eq_true, mem_single, List.any_eq_true]
  refine or_congr_right ⟨?_, fun h => ?_⟩
  · rintro ⟨n, hn, hmem⟩
    rw [eq_toNat_of_ofNat_eq (mem_single.mp hmem) hd] at hn
    exact Text.mem_caseVariants_symm hn
  · refine ⟨d.toNat, Text.mem_caseVariants_symm h, ?_⟩
    rw [Char.ofNat_toNat, mem_single]

end CharClass

end Rulebook
