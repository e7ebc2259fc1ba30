import Mathlib.Algebra.Order.Group.Unbundled.Int
import Mathlib.Data.Nat.Dist
import Rulebook.Proofs.Number.Value

namespace Rulebook

-- No multiple is nearer, and where another one is as near the even one is taken. All multiples lie
-- outside the two that the number is between.
theorem roundDiv_nearest (n : Nat) {d : Nat} (hd : 0 < d) (j : Nat) :
    Nat.dist n (roundDiv n d * d) ≤ Nat.dist n (j * d) ∧
      (j * d ≠ roundDiv n d * d → Nat.dist n (j * d) = Nat.dist n (roundDiv n d * d) →
        roundDiv n d % 2 = 0) := by
  have hmod := Nat.mod_lt n hd
  have hn : n / d * d + n % d = n := by rw [Nat.mul_comm, Nat.div_add_mod]
  have hnext : (n / d + 1) * d = n / d * d + d := Nat.succ_mul _ _
  have hj : j * d ≤ n / d * d ∨ (n / d + 1) * d ≤ j * d :=
    (le_or_gt j (n / d)).imp (Nat.mul_le_mul_right d) (Nat.mul_le_mul_right d)
  have hcases : roundDiv n d = n / d ∧ 2 * (n % d) ≤ d ∧ (2 * (n % d) = d → n / d % 2 = 0) ∨
      roundDiv n d = n / d + 1 ∧ d ≤ 2 * (n % d) ∧ (2 * (n % d) = d → n / d % 2 = 1) := by
    unfold roundDiv
    split_ifs <;> omega
  unfold Nat.dist
  rcases hcases with ⟨hround, hbelow, heven⟩ | ⟨hround, habove, hodd⟩
  · rw [hround]
    omega
  · rw [hround, hnext]
    omega

namespace Binary64

-- No magnitude of a float is nearer to the one that was rounded, and where another one is as near
-- the mantissa is even.
theorem size_nearest {x : Binary64} {s : Nat} (hcode : x.code.val = codeOfSize s)
    (y : Binary64) :
    Nat.dist s x.size ≤ Nat.dist s y.size ∧
      (y.size ≠ x.size → Nat.dist s y.size = Nat.dist s x.size → x.mantissa % 2 = 0) := by
  obtain ⟨hsize, heven⟩ := size_of_code_eq_codeOfSize hcode
  have hlower := le_quotient (s := s)
  have hnearest := roundDiv_nearest s (Nat.two_pow_pos (Nat.log2 s - 52))
  have hdiv := Nat.div_mul_le_self s (2 ^ (Nat.log2 s - 52))
  rw [hsize]
  generalize Nat.log2 s - 52 = k at *
  rcases le_or_gt k y.shift with hshift | hshift
  · -- The other one is a multiple of the same unit.
    have hy : y.size = y.mantissa * 2 ^ (y.shift - k) * 2 ^ k := by
      rw [size, Nat.shiftLeft_eq, Nat.mul_assoc, ← Nat.pow_add, Nat.sub_add_cancel hshift]
    obtain ⟨hle, htie⟩ := hnearest (y.mantissa * 2 ^ (y.shift - k))
    rw [hy]
    exact ⟨hle, fun hne heq => heven (htie hne heq)⟩
  · -- The other one lies below the first multiple of the exponent.
    have hy : y.size < 2 ^ 52 * 2 ^ k := by
      rw [size, Nat.shiftLeft_eq]
      calc y.mantissa * 2 ^ y.shift
          < 2 ^ 53 * 2 ^ y.shift := Nat.mul_lt_mul_of_pos_right y.mantissa_lt (Nat.two_pow_pos _)
        _ = 2 ^ 52 * 2 ^ (y.shift + 1) := by rw [Nat.pow_succ']; omega
        _ ≤ 2 ^ 52 * 2 ^ k := Nat.mul_le_mul_left _ (Nat.pow_le_pow_right (by decide) hshift)
    have hs : 2 ^ 52 * 2 ^ k ≤ s :=
      Nat.le_trans (Nat.mul_le_mul_right _ (hlower (by omega))) hdiv
    have hle := (hnearest (2 ^ 52)).1
    unfold Nat.dist at *
    omega

-- A float that no other one is nearer than to a number. Where another one is as near, its mantissa
-- is even.
structure IsNearest (x : Binary64) (a : ℚ) : Prop where
  le : ∀ y : Binary64, |a - (Number.float x).value| ≤ |a - (Number.float y).value|
  even : ∀ y : Binary64, (Number.float y).value ≠ (Number.float x).value →
    |a - (Number.float y).value| = |a - (Number.float x).value| → x.mantissa % 2 = 0

end Binary64

namespace Number

theorem abs_value_sub (a b : Number) :
    |a.value - b.value| = ((a.units - b.units).natAbs : ℚ) / Binary64.one := by
  rw [value, value, ← sub_div, abs_div, abs_of_pos one_pos, ← Int.cast_sub, ← Int.cast_abs,
    Int.abs_eq_natAbs, Int.cast_natCast]

theorem abs_value_sub_le_iff {a b c : Number} :
    |a.value - b.value| ≤ |a.value - c.value| ↔
      (a.units - b.units).natAbs ≤ (a.units - c.units).natAbs := by
  rw [abs_value_sub, abs_value_sub, div_le_div_iff_of_pos_right one_pos, Nat.cast_le]

-- Rounding does not change the sign.
theorem natAbs_sub_units_toBinary64 (a : Number) :
    (a.units - a.toBinary64.units).natAbs = Nat.dist a.units.natAbs a.toBinary64.size := by
  have hsign := a.units_sign
  rw [units_toBinary64]
  unfold Nat.dist
  split_ifs at hsign ⊢ <;> omega

theorem dist_le_natAbs_sub_units (a : Number) (y : Binary64) :
    Nat.dist a.units.natAbs y.size ≤ (a.units - y.units).natAbs := by
  rw [← y.natAbs_units]
  unfold Nat.dist
  omega

-- A number is rounded to the nearest float.
theorem isNearest_toBinary64 (a : Number) : a.toBinary64.IsNearest a.value := by
  have hnearest := Binary64.size_nearest a.code_toBinary64
  have hnear := a.natAbs_sub_units_toBinary64
  have hfar := a.dist_le_natAbs_sub_units
  have hunits (y : Binary64) : (float y).units = y.units := rfl
  refine ⟨fun y => ?_, fun y hne heq => ?_⟩
  · rw [abs_value_sub_le_iff, hunits, hunits, hnear]
    exact (hnearest y).1.trans (hfar y)
  · have hle := abs_value_sub_le_iff.mp heq.le
    rw [Ne, value_inj, hunits, hunits] at hne
    rw [hunits, hunits, hnear] at hle
    have hdist := le_antisymm ((hfar y).trans hle) (hnearest y).1
    refine (hnearest y).2 (fun hsize => hne ?_) hdist
    -- A float of the other sign is as near only if both are zero.
    have hy := y.natAbs_units
    have hsign := a.units_sign
    have hzero := a.size_toBinary64_of_units_eq_zero
    rw [units_toBinary64]
    unfold Nat.dist at hle
    split_ifs at hsign ⊢ <;> omega

end Number

end Rulebook
