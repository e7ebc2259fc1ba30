import Mathlib.Algebra.Group.Nat.Defs
import Rulebook.Number.Basic

namespace Rulebook

namespace Binary64

theorem mantissa_eq (x : Binary64) :
    x.mantissa = if x.code.val < 2 ^ 52 then x.code.val else 2 ^ 52 + x.code.val % 2 ^ 52 :=
  rfl

theorem shift_eq (x : Binary64) : x.shift = x.code.val / 2 ^ 52 - 1 := by
  rw [shift, Nat.shiftRight_eq_div_pow]

theorem mantissa_lt (x : Binary64) : x.mantissa < 2 ^ 53 := by
  rw [mantissa_eq]
  split <;> omega

-- Only the numbers of the least exponent may lack the leading bit.
theorem le_mantissa_of_shift_pos {x : Binary64} (h : 0 < x.shift) : 2 ^ 52 ≤ x.mantissa := by
  rw [shift_eq] at h
  rw [mantissa_eq]
  split <;> omega

theorem code_eq (x : Binary64) : x.code.val = x.shift * 2 ^ 52 + x.mantissa := by
  rw [shift_eq, mantissa_eq]
  split <;> omega

-- Codes are ordered as the magnitudes are: a greater exponent outweighs any mantissa.
theorem size_lt_size {x y : Binary64} (h : x.code < y.code) : x.size < y.size := by
  have hx := x.mantissa_lt
  have hy := y.mantissa_lt
  have hcode : x.shift * 2 ^ 52 + x.mantissa < y.shift * 2 ^ 52 + y.mantissa := by
    rw [← code_eq, ← code_eq]
    exact h
  rw [size, size, Nat.shiftLeft_eq, Nat.shiftLeft_eq]
  rcases Nat.lt_trichotomy x.shift y.shift with hlt | heq | hgt
  · have hleading : 2 ^ 52 ≤ y.mantissa := le_mantissa_of_shift_pos (by omega)
    calc x.mantissa * 2 ^ x.shift
        < 2 ^ 53 * 2 ^ x.shift := Nat.mul_lt_mul_of_pos_right hx (Nat.two_pow_pos _)
      _ = 2 ^ 52 * 2 ^ (x.shift + 1) := by rw [Nat.pow_succ']; omega
      _ ≤ y.mantissa * 2 ^ y.shift :=
          Nat.mul_le_mul hleading (Nat.pow_le_pow_right (by decide) hlt)
  · rw [heq] at hcode ⊢
    exact Nat.mul_lt_mul_of_pos_right (by omega) (Nat.two_pow_pos _)
  · have hleading : 2 ^ 52 ≤ x.mantissa := le_mantissa_of_shift_pos (by omega)
    omega

theorem code_eq_of_size_eq {x y : Binary64} (h : x.size = y.size) : x.code = y.code := by
  rcases Nat.lt_trichotomy x.code.val y.code.val with hlt | heq | hgt
  · exact absurd h (Nat.ne_of_lt (size_lt_size hlt))
  · exact Fin.ext heq
  · exact absurd h.symm (Nat.ne_of_lt (size_lt_size hgt))

theorem size_eq_of_units_eq {x y : Binary64} (h : x.units = y.units) : x.size = y.size := by
  unfold units at h
  split at h <;> split at h <;> omega

-- Numbers of one value are the same, unless they are the two zeros.
theorem eq_or_size_eq_zero {x y : Binary64} (h : x.units = y.units) :
    x = y ∨ x.size = 0 ∧ y.size = 0 := by
  have hsize := size_eq_of_units_eq h
  by_cases hzero : x.size = 0
  · exact .inr ⟨hzero, hsize ▸ hzero⟩
  · left
    have hcode := code_eq_of_size_eq hsize
    have hsign : x.negative = y.negative := by
      unfold units at h
      cases hx : x.negative <;> cases hy : y.negative <;> simp [hx, hy] at h ⊢ <;> omega
    obtain ⟨negative, code⟩ := x
    obtain ⟨_, _⟩ := y
    obtain rfl : negative = _ := hsign
    obtain rfl : code = _ := hcode
    rfl

end Binary64

namespace Number

theorem same_comm (a b : Number) : a.same b = b.same a := by
  cases a <;> cases b <;> simp only [same, Binary64.same, Bool.beq_comm]

theorem same_trans {a b c : Number} (hab : a.same b = true) (hbc : b.same c = true) :
    a.same c = true := by
  cases a <;> cases b <;> cases c <;> simp_all [same, Binary64.same]

theorem units_eq_of_same {a b : Number} (h : a.same b = true) :
    a.toBinary64.units = b.toBinary64.units := by
  cases a with
  | int n hn =>
      cases b with
      | int m hm =>
          obtain rfl : n = m := by simpa [same] using h
          rfl
      | float y => cases h
  | float x =>
      cases b with
      | int m hm => cases h
      | float y => simpa [same, Binary64.same, toBinary64] using h

-- Numbers that are the same for data are written alike: a zero has no sign.
theorem plain_eq_of_same {a b : Number} (h : a.same b = true) : a.plain = b.plain := by
  cases a with
  | int n hn =>
      cases b with
      | int m hm =>
          obtain rfl : n = m := by simpa [same] using h
          rfl
      | float y => cases h
  | float x =>
      cases b with
      | int m hm => cases h
      | float y =>
          have hunits : x.units = y.units := by simpa [same, Binary64.same] using h
          obtain rfl | ⟨hx, hy⟩ := Binary64.eq_or_size_eq_zero hunits
          · rfl
          · simp [plain, Binary64.isIntegral, Binary64.whole, hx, hy]

theorem isInteger_eq_of_same {a b : Number} (h : a.same b = true) :
    a.isInteger = b.isInteger := by
  cases a with
  | int n hn =>
      cases b with
      | int m hm => rfl
      | float y => cases h
  | float x =>
      cases b with
      | int m hm => cases h
      | float y =>
          have hunits : x.units = y.units := by simpa [same, Binary64.same] using h
          simp only [isInteger, Binary64.isIntegral, Binary64.size_eq_of_units_eq hunits]

end Number

end Rulebook
