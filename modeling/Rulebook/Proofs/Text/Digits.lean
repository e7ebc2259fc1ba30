import Rulebook.Proofs.Text.Trim
import Rulebook.Text.Numeral

namespace Rulebook.Text

variable {c : Char} {cs : List Char}

theorem isDigitRun_iff : isDigitRun cs = true ↔ cs ≠ [] ∧ ∀ c ∈ cs, c.isDigit = true := by
  simp [isDigitRun]

theorem notMem_of_isDigitRun (h : isDigitRun cs = true) (hc : c.isDigit = false) : c ∉ cs := by
  intro hmem
  cases hc.symm.trans ((isDigitRun_iff.mp h).2 c hmem)

theorem isDigit_iff : c.isDigit = true ↔ '0' ≤ c ∧ c ≤ '9' :=
  Bool.and_eq_true_iff.trans (and_congr decide_eq_true_iff decide_eq_true_iff)

-- The digits are those of the numbers below ten.
theorem exists_digitChar (h : c.isDigit = true) : ∃ n < 10, c = Nat.digitChar n := by
  obtain ⟨hfirst, hlast⟩ : 48 ≤ c.toNat ∧ c.toNat ≤ 57 := isDigit_iff.mp h
  have hchar : ∀ n < 10, (Nat.digitChar n).toNat = n + 48 := by decide
  refine ⟨c.toNat - 48, by omega, Char.toNat_inj.mp ?_⟩
  rw [hchar _ (by omega)]
  omega

theorem digitValue_digitChar : ∀ n < 10, digitValue (Nat.digitChar n) = n := by
  decide

theorem isBlank_of_isDigit (h : c.isDigit = true) : isBlank c = false := by
  simp only [Char.isDigit, Bool.and_eq_true, decide_eq_true_eq, ge_iff_le, UInt32.le_iff_toNat_le]
    at h
  obtain ⟨hfirst, hlast⟩ : 48 ≤ c.toNat ∧ c.toNat ≤ 57 := h
  simp [isBlank, inRanges, blankRanges]
  omega

theorem trimChars_of_forall_not_isBlank (h : ∀ c ∈ cs, isBlank c = false) : trimChars cs = cs := by
  have hstart (cs : List Char) (h : ∀ c ∈ cs, isBlank c = false) : trimStart cs = cs := by
    cases cs with
    | nil => rfl
    | cons c cs => exact List.dropWhile_cons_of_neg (by simp [h c List.mem_cons_self])
  rw [trimChars, hstart cs h, trimEnd, hstart, List.reverse_reverse]
  exact fun c hc => h c (List.mem_reverse.mp hc)

theorem trimChars_of_isDigitRun (h : isDigitRun cs = true) : trimChars cs = cs :=
  trimChars_of_forall_not_isBlank fun c hc => isBlank_of_isDigit ((isDigitRun_iff.mp h).2 c hc)

theorem isDigit_of_mem_natDigits {n : Nat} {c : Char} (h : c ∈ natDigits n) :
    c.isDigit = true :=
  Nat.isDigit_of_mem_toDigits (by decide) (by decide) h

theorem natOfDigits_natDigits (n : Nat) : natOfDigits (natDigits n) = n :=
  Nat.ofDigitChars_ten_toDigits

theorem isDigitRun_natDigits (n : Nat) : isDigitRun (natDigits n) = true :=
  isDigitRun_iff.mpr ⟨Nat.toDigits_ne_nil, fun _ => isDigit_of_mem_natDigits⟩

theorem notMem_natDigits (hc : c.isDigit = false) (n : Nat) : c ∉ natDigits n :=
  notMem_of_isDigitRun (isDigitRun_natDigits n) hc

theorem isDigitRun_natText (n : Nat) : isDigitRun (natText n).toList = true := by
  rw [natText, String.toList_ofList]
  exact isDigitRun_natDigits n

theorem isDigitRun_intDigits_iff {n : Int} : isDigitRun (intDigits n) = true ↔ 0 ≤ n := by
  cases n with
  | ofNat n => exact iff_of_true (isDigitRun_natDigits n) (Int.natCast_nonneg n)
  | negSucc n =>
      refine iff_of_false (fun h => ?_) (Int.not_le.mpr (Int.negSucc_lt_zero n))
      exact notMem_of_isDigitRun h (c := '-') rfl List.mem_cons_self

theorem trimChars_intDigits (n : Int) : trimChars (intDigits n) = intDigits n := by
  have hnat (n : Nat) : ∀ c ∈ natDigits n, isBlank c = false :=
    fun _ hc => isBlank_of_isDigit (isDigit_of_mem_natDigits hc)
  apply trimChars_of_forall_not_isBlank
  cases n with
  | ofNat n => exact hnat n
  | negSucc n => exact List.forall_mem_cons.mpr ⟨by decide, hnat (n + 1)⟩

end Rulebook.Text
