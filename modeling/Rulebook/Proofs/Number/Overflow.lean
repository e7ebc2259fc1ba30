import Rulebook.Proofs.Number.Decimal
import Rulebook.Proofs.Number.Value

namespace Rulebook

-- An even result is reached from half a unit below it.
theorem le_roundDiv_iff {n d j : Nat} (hd : 0 < d) (hj : j % 2 = 0) :
    j ≤ roundDiv n d ↔ 2 * (j * d) ≤ 2 * n + d := by
  have hmod := Nat.mod_lt n hd
  have hn : n / d * d + n % d = n := by rw [Nat.mul_comm, Nat.div_add_mod]
  rcases Nat.lt_trichotomy j (n / d + 1) with hlt | rfl | hgt
  · have hle : j * d ≤ n / d * d := Nat.mul_le_mul_right d (by omega)
    have hround := div_le_roundDiv n d
    exact iff_of_true (by omega) (by omega)
  · have hnext : (n / d + 1) * d = n / d * d + d := Nat.succ_mul _ _
    rw [hnext, roundDiv]
    split_ifs <;> omega
  · have hle : (n / d + 2) * d ≤ j * d := Nat.mul_le_mul_right d (by omega)
    rw [Nat.add_mul] at hle
    have hround := roundDiv_le_div_add_one n d
    exact iff_of_false (by omega) (by omega)

namespace Binary64

-- The least magnitude that is too great for a float, 2^1024 - 2^970. It lies half a unit of the
-- last bit above the greatest one.
def overflow : Nat := (2 ^ 54 - 1) * 2 ^ 970

theorem overflow_mul_one : overflow * one = (2 ^ 54 - 1) * 2 ^ 2044 := by
  rw [overflow, one, Nat.one_shiftLeft, Nat.mul_assoc, ← pow_add, finest]

-- Whether the exponent is that of the greatest floats is decided by the leading bit, and if it is
-- theirs, whether the mantissa is rounded up to that of the next exponent.
theorem nearestCode_lt_iff {num den : Nat} (hden : 0 < den) :
    nearestCode num den < 2047 <<< 52 ↔ num < overflow * den := by
  have hone : 0 < one := by decide
  have hscaled : num < overflow * den ↔ num * one < (2 ^ 54 - 1) * (den * 2 ^ 2044) := by
    rw [← Nat.mul_lt_mul_right hone, Nat.mul_right_comm, overflow_mul_one, Nat.mul_assoc,
      Nat.mul_comm den]
  have hnum : num <<< finest = num * one := by rw [Nat.shiftLeft_eq, one, Nat.one_shiftLeft]
  rw [hscaled, nearestCode, hnum]
  generalize num * one = scaled
  have hround := roundDiv_le_div_add_one scaled (den <<< (Nat.log2 (scaled / den) - 52))
  have hfloor := div_le_roundDiv scaled (den <<< (Nat.log2 (scaled / den) - 52))
  have hupper := quotient_lt (scaled / den)
  have hlower := le_quotient (s := scaled / den)
  simp only [Nat.shiftLeft_eq, ← Nat.div_div_eq_div_mul] at hround hfloor ⊢
  have hpow (e p : Nat) : 2 ^ (e + p) * den = 2 ^ e * (den * 2 ^ p) := by
    rw [Nat.pow_add, Nat.mul_assoc, Nat.mul_comm den]
  have hunit : 0 < den * 2 ^ 2044 := Nat.mul_pos hden (pow_pos two_pos 2044)
  rcases Nat.lt_trichotomy (Nat.log2 (scaled / den)) 2097 with hlt | heq | hgt
  · have hbelow : scaled < 2 ^ 53 * (den * 2 ^ 2044) := by
      rw [← hpow, ← Nat.div_lt_iff_lt_mul hden]
      exact Nat.lt_log2_self.trans_le (pow_le_pow_right₀ one_le_two hlt)
    exact iff_of_true (by omega) (by omega)
  · have hshift : Nat.log2 (scaled / den) - 52 = 2044 + 1 := by omega
    have hlast : den * 2 ^ (Nat.log2 (scaled / den) - 52) = 2 * (den * 2 ^ 2044) := by
      rw [hshift, pow_succ, ← mul_assoc, mul_comm 2]
    have hmantissa := le_roundDiv_iff (n := scaled) (j := 2 ^ 53) (Nat.mul_pos two_pos hunit)
      (by decide)
    rw [hlast] at hround ⊢
    omega
  · have habove : 2 ^ 54 * (den * 2 ^ 2044) ≤ scaled := by
      have hne : scaled / den ≠ 0 := by
        intro hzero
        rw [hzero] at hgt
        cases hgt
      rw [← hpow, ← Nat.le_div_iff_mul_le hden]
      have hexponent : 54 + 2044 ≤ Nat.log2 (scaled / den) := hgt
      exact (pow_le_pow_right₀ one_le_two hexponent).trans (Nat.log2_self_le hne)
    exact iff_of_false (by omega) (by omega)

theorem nearest?_eq_none_iff {negative : Bool} {num den : Nat} (hden : 0 < den) :
    nearest? negative num den = none ↔ overflow * den ≤ num := by
  rw [← Nat.not_lt, ← nearestCode_lt_iff hden, nearest?]
  split_ifs with h
  · exact iff_of_false (by simp) (not_not.mpr h)
  · exact iff_of_true rfl h

theorem one_le_overflow : 1 ≤ overflow :=
  Nat.mul_pos (by decide) (pow_pos two_pos 970)

theorem overflow_le : overflow ≤ 10 ^ 400 :=
  calc overflow
      ≤ 2 ^ 54 * 2 ^ 970 := Nat.mul_le_mul_right _ (by decide)
    _ = 2 ^ (54 + 970) := (pow_add 2 54 970).symm
    _ ≤ 2 ^ (3 * 400) := pow_le_pow_right₀ one_le_two (by decide)
    _ = (2 ^ 3) ^ 400 := pow_mul 2 3 400
    _ ≤ 10 ^ 400 := pow_le_pow_left₀ (by decide) (by decide) 400

end Binary64

namespace Decimal

-- The value lies between the power of ten of the first digit and the next one.
theorem leading_bounds {d : Decimal} (h : d.digits ≠ 0) :
    (10 : ℚ) ^ d.leading ≤ d.value ∧ d.value < 10 ^ (d.leading + 1) := by
  have hten : (10 : ℚ) ≠ 0 := by norm_num
  have hscale : (0 : ℚ) < 10 ^ d.exponent := zpow_pos (by norm_num) _
  obtain ⟨k, hk⟩ : ∃ k, (Text.natDigits d.digits).length = k + 1 :=
    Nat.exists_eq_add_one.mpr Nat.length_toDigits_pos
  have hlength (e : Nat) (he : 0 < e) : k + 1 ≤ e ↔ d.digits < 10 ^ e := by
    rw [← hk]
    exact Nat.length_toDigits_le_iff (by decide) he
  have hupper : d.digits < 10 ^ (k + 1) := (hlength (k + 1) k.succ_pos).mp le_rfl
  have hlower : 10 ^ k ≤ d.digits := by
    rcases Nat.eq_zero_or_pos k with rfl | hpos
    · exact Nat.one_le_iff_ne_zero.mpr h
    · exact not_lt.mp fun hlt => absurd ((hlength k hpos).mpr hlt) (by omega)
  have hleading : d.leading = k + d.exponent := by
    rw [leading, hk]
    omega
  rw [hleading, value, add_right_comm, zpow_add₀ hten, zpow_add₀ hten, mul_le_mul_iff_left₀ hscale,
    mul_lt_mul_iff_left₀ hscale]
  exact ⟨by exact_mod_cast hlower, by exact_mod_cast hupper⟩

end Decimal

namespace Numeral

-- A numeral is too large for a float if it is not below the limit. The leading digit decides that
-- by itself where the exponent is far off.
theorem toBinary64?_eq_none_iff {n : Numeral} :
    n.toBinary64? = none ↔ (Binary64.overflow : ℚ) ≤ n.decimal.value := by
  have hone : (1 : ℚ) ≤ Binary64.overflow := by exact_mod_cast Binary64.one_le_overflow
  have hlimit : (Binary64.overflow : ℚ) ≤ 10 ^ 400 := by exact_mod_cast Binary64.overflow_le
  rw [toBinary64?]
  by_cases hzero : n.decimal.digits = 0
  · have hvalue : n.decimal.value = 0 := by simp [Decimal.value, hzero]
    rw [if_pos hzero, hvalue]
    exact iff_of_false (by simp) (not_le.mpr (zero_lt_one.trans_le hone))
  obtain ⟨hlower, hupper⟩ := Decimal.leading_bounds hzero
  rw [if_neg hzero]
  split_ifs with hlarge hsmall
  · refine iff_of_true rfl (hlimit.trans (le_trans ?_ hlower))
    exact_mod_cast zpow_le_zpow_right₀ (by norm_num : (1 : ℚ) ≤ 10) hlarge
  · refine iff_of_false (by simp) (not_le.mpr (hupper.trans_le (le_trans ?_ hone)))
    exact zpow_le_one_of_nonpos₀ (by norm_num) (by omega)
  · have hden : (0 : ℚ) < n.decimal.denominator := by exact_mod_cast n.decimal.denominator_pos
    rw [Binary64.nearest?_eq_none_iff n.decimal.denominator_pos, Decimal.value_eq_div,
      le_div_iff₀ hden, ← Nat.cast_mul, Nat.cast_le]

end Numeral

end Rulebook
