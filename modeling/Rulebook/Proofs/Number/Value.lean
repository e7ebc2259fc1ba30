import Mathlib.Algebra.Order.Field.Rat
import Mathlib.Algebra.Order.Field.Basic
import Rulebook.Proofs.Number.Magnitude

namespace Rulebook

-- Equal quotients leave the rest to the remainders.
theorem roundDiv_le_roundDiv {n m : Nat} (h : n ≤ m) (d : Nat) :
    roundDiv n d ≤ roundDiv m d := by
  have hquotient := Nat.div_le_div_right (c := d) h
  have hn := Nat.div_add_mod n d
  have hm := Nat.div_add_mod m d
  unfold roundDiv
  rcases Nat.lt_or_eq_of_le hquotient with hlt | heq
  · split_ifs <;> omega
  · rw [heq] at hn ⊢
    have hremainder : n % d ≤ m % d := by omega
    split_ifs <;> omega

theorem div_le_roundDiv (n d : Nat) : n / d ≤ roundDiv n d := by
  unfold roundDiv
  split_ifs <;> omega

theorem roundDiv_le_div_add_one (n d : Nat) : roundDiv n d ≤ n / d + 1 := by
  unfold roundDiv
  split_ifs <;> omega

-- A multiple needs no rounding.
theorem roundDiv_mul_right (n : Nat) {d : Nat} (hd : 0 < d) : roundDiv (n * d) d = n := by
  rw [roundDiv, Nat.mul_mod_left, if_pos (by omega), Nat.mul_div_cancel n hd]

theorem roundDiv_mul_cancel {n d : Nat} (hd : 0 < d) (h : d ∣ n) : roundDiv n d * d = n := by
  obtain ⟨m, rfl⟩ := h
  rw [Nat.mul_comm d m, roundDiv_mul_right m hd]

namespace Binary64

-- The code of the number nearest to a magnitude in units.
def codeOfSize (size : Nat) : Nat :=
  (Nat.log2 size - 52) * 2 ^ 52 + roundDiv size (2 ^ (Nat.log2 size - 52))

theorem nearestCode_one (n : Nat) : nearestCode n 1 = codeOfSize (n * one) := by
  simp only [nearestCode, codeOfSize, one, Nat.div_one, Nat.shiftLeft_eq, Nat.one_mul]

-- Without its last bits a magnitude fills a mantissa, or is no more than one.
theorem quotient_lt (s : Nat) : s / 2 ^ (Nat.log2 s - 52) < 2 ^ 53 := by
  rw [Nat.div_lt_iff_lt_mul (Nat.two_pow_pos _), ← Nat.pow_add]
  exact Nat.lt_of_lt_of_le Nat.lt_log2_self (Nat.pow_le_pow_right (by decide) (by omega))

theorem le_quotient {s : Nat} (h : 0 < Nat.log2 s - 52) : 2 ^ 52 ≤ s / 2 ^ (Nat.log2 s - 52) := by
  have hs : s ≠ 0 := by
    rintro rfl
    simp at h
  rw [Nat.le_div_iff_mul_le (Nat.two_pow_pos _), ← Nat.pow_add,
    show 52 + (Nat.log2 s - 52) = Nat.log2 s by omega]
  exact Nat.log2_self_le hs

-- Greater magnitudes have greater codes. Within one exponent the mantissas are rounded alike,
-- and a mantissa that is rounded up is at most the first one of the next exponent.
theorem codeOfSize_le_codeOfSize {s t : Nat} (h : s ≤ t) : codeOfSize s ≤ codeOfSize t := by
  unfold codeOfSize
  have hlog : Nat.log2 s ≤ Nat.log2 t := by
    by_cases hs : s = 0
    · subst hs
      exact Nat.zero_le _
    · have ht : t ≠ 0 := by omega
      exact (Nat.le_log2 ht).mpr (Nat.le_trans (Nat.log2_self_le hs) h)
  have hupper := quotient_lt s
  have hlower := le_quotient (s := t)
  generalize hk : Nat.log2 s - 52 = k at hupper ⊢
  generalize hl : Nat.log2 t - 52 = l at hlower ⊢
  rcases Nat.lt_or_eq_of_le (show k ≤ l by omega) with hlt | rfl
  · have hleading := hlower (by omega)
    have hround := roundDiv_le_div_add_one s (2 ^ k)
    have hfloor := div_le_roundDiv t (2 ^ l)
    have hstep : (k + 1) * 2 ^ 52 ≤ l * 2 ^ 52 := Nat.mul_le_mul_right _ hlt
    omega
  · exact Nat.add_le_add_left (roundDiv_le_roundDiv h _) _

-- The magnitude of a number is rounded to the number itself.
theorem codeOfSize_size (x : Binary64) : codeOfSize x.size = x.code.val := by
  have hmantissa := x.mantissa_lt
  have hshift : Nat.log2 x.size - 52 = x.shift := by
    rw [size, Nat.shiftLeft_eq]
    by_cases hpositive : 0 < x.shift
    · have hleading := le_mantissa_of_shift_pos hpositive
      have hlog : Nat.log2 (x.mantissa * 2 ^ x.shift) = 52 + x.shift := by
        rw [Nat.log2_eq_iff (Nat.ne_of_gt (Nat.mul_pos (by omega) (Nat.two_pow_pos _))),
          Nat.pow_add, Nat.add_right_comm, Nat.pow_add]
        exact ⟨Nat.mul_le_mul_right _ hleading,
          Nat.mul_lt_mul_of_pos_right hmantissa (Nat.two_pow_pos _)⟩
      omega
    · have hzero : x.shift = 0 := by omega
      by_cases hsize : x.mantissa = 0
      · simp [hzero, hsize]
      · have hlog := (Nat.log2_lt hsize).mpr hmantissa
        simp only [hzero, Nat.pow_zero, Nat.mul_one]
        omega
  rw [codeOfSize, hshift, x.code_eq, size, Nat.shiftLeft_eq,
    roundDiv_mul_right _ (Nat.two_pow_pos _)]

theorem size_le_size {x y : Binary64} (h : x.code.val ≤ y.code.val) : x.size ≤ y.size := by
  rcases Nat.lt_or_eq_of_le h with hlt | heq
  · exact Nat.le_of_lt (size_lt_size hlt)
  · rw [size, size, shift, shift, mantissa, mantissa, heq]

-- A code has one mantissa and one exponent.
theorem parts_of_code_eq {x : Binary64} {m k : Nat} (hm : m < 2 ^ 53)
    (hleading : 0 < k → 2 ^ 52 ≤ m) (hcode : x.code.val = k * 2 ^ 52 + m) :
    x.shift = k ∧ x.mantissa = m := by
  have hmantissa := x.mantissa_lt
  have hnormal := x.le_mantissa_of_shift_pos
  rw [code_eq] at hcode
  omega

-- A magnitude is rounded to a multiple of the unit of its last bit. One that is rounded up to
-- 2^53 of these units is the first of the next exponent.
theorem size_of_code_eq_codeOfSize {x : Binary64} {s : Nat} (hcode : x.code.val = codeOfSize s) :
    x.size = roundDiv s (2 ^ (Nat.log2 s - 52)) * 2 ^ (Nat.log2 s - 52) ∧
      (roundDiv s (2 ^ (Nat.log2 s - 52)) % 2 = 0 → x.mantissa % 2 = 0) := by
  have hupper := quotient_lt s
  have hlower := le_quotient (s := s)
  have hround := roundDiv_le_div_add_one s (2 ^ (Nat.log2 s - 52))
  have hfloor := div_le_roundDiv s (2 ^ (Nat.log2 s - 52))
  rw [codeOfSize] at hcode
  generalize Nat.log2 s - 52 = k at *
  generalize roundDiv s (2 ^ k) = m at *
  rw [size, Nat.shiftLeft_eq]
  rcases Nat.lt_or_eq_of_le (show m ≤ 2 ^ 53 by omega) with hm | hm
  · obtain ⟨hshift, hmantissa⟩ := parts_of_code_eq hm (fun hk => by have := hlower hk; omega) hcode
    rw [hshift, hmantissa]
    exact ⟨rfl, id⟩
  · have hnext : x.code.val = (k + 1) * 2 ^ 52 + 2 ^ 52 := by
      rw [hcode, hm, Nat.succ_mul]
      omega
    obtain ⟨hshift, hmantissa⟩ := parts_of_code_eq (by decide) (fun _ => Nat.le_refl _) hnext
    rw [hshift, hmantissa, hm, Nat.pow_succ']
    exact ⟨by omega, fun _ => by decide⟩

theorem natAbs_units (x : Binary64) : x.units.natAbs = x.size := by
  unfold units
  split <;> omega

end Binary64

namespace Number

-- The exact value in units of the least positive number.
def units : Number → Int
  | int n _ => n * Binary64.one
  | float x => x.units

-- The exact value.
def value (a : Number) : ℚ :=
  a.units / Binary64.one

theorem one_pos : (0 : ℚ) < Binary64.one :=
  Nat.cast_pos.mpr (by decide)

theorem value_int (n : Int) (fits : -9223372036854775808 ≤ n ∧ n < 18446744073709551616) :
    (int n fits).value = n := by
  rw [value, units, Int.cast_mul, Int.cast_natCast, mul_div_cancel_right₀ _ (ne_of_gt one_pos)]

theorem value_le_iff {a b : Number} : a.value ≤ b.value ↔ a.units ≤ b.units := by
  rw [value, value, div_le_div_iff_of_pos_right one_pos, Int.cast_le]

theorem value_lt_iff {a b : Number} : a.value < b.value ↔ a.units < b.units := by
  rw [value, value, div_lt_div_iff_of_pos_right one_pos, Int.cast_lt]

theorem value_inj {a b : Number} : a.value = b.value ↔ a.units = b.units := by
  rw [le_antisymm_iff, value_le_iff, value_le_iff, le_antisymm_iff]

theorem code_toBinary64 (a : Number) :
    a.toBinary64.code.val = Binary64.codeOfSize a.units.natAbs := by
  cases a with
  | int n fits =>
      rw [units, Int.natAbs_mul, Int.natAbs_natCast, ← Binary64.nearestCode_one]
      rfl
  | float x => rw [units, Binary64.natAbs_units, Binary64.codeOfSize_size, toBinary64]

theorem units_toBinary64 (a : Number) :
    a.toBinary64.units =
      if a.toBinary64.negative then -(a.toBinary64.size : Int) else a.toBinary64.size :=
  rfl

theorem units_sign (a : Number) :
    if a.toBinary64.negative then a.units ≤ 0 else 0 ≤ a.units := by
  cases a with
  | int n fits =>
      have hone : (0 : Int) < Binary64.one := by decide
      simp only [toBinary64, Binary64.ofInt, units, decide_eq_true_eq]
      split_ifs with hn
      · exact Int.mul_nonpos_of_nonpos_of_nonneg (by omega) (by omega)
      · exact Int.mul_nonneg (by omega) (by omega)
  | float x =>
      simp only [toBinary64, units, Binary64.units]
      split_ifs <;> omega

-- Greater magnitudes are rounded to greater magnitudes.
theorem size_toBinary64_le {a b : Number} (h : a.units.natAbs ≤ b.units.natAbs) :
    a.toBinary64.size ≤ b.toBinary64.size := by
  apply Binary64.size_le_size
  rw [code_toBinary64, code_toBinary64]
  exact Binary64.codeOfSize_le_codeOfSize h

theorem size_toBinary64_of_units_eq_zero {a : Number} (h : a.units = 0) :
    a.toBinary64.size = 0 := by
  have hcode : a.toBinary64.code.val = 0 := by
    rw [code_toBinary64, h]
    rfl
  rw [Binary64.size, Binary64.mantissa, Binary64.shift, hcode]
  rfl

-- Rounding keeps the order.
theorem units_toBinary64_le {a b : Number} (h : a.units ≤ b.units) :
    a.toBinary64.units ≤ b.toBinary64.units := by
  have ha := a.units_sign
  have hb := b.units_sign
  rw [units_toBinary64, units_toBinary64]
  split_ifs at ha hb ⊢ with hx hy hy
  · have := size_toBinary64_le (a := b) (b := a) (by omega)
    omega
  · omega
  · -- A number that is neither above nor below zero is zero.
    rw [size_toBinary64_of_units_eq_zero (a := a) (by omega),
      size_toBinary64_of_units_eq_zero (a := b) (by omega)]
    omega
  · have := size_toBinary64_le (a := a) (b := b) (by omega)
    omega

-- Numbers of one value have one rounding.
theorem units_toBinary64_eq {a b : Number} (h : a.units = b.units) :
    a.toBinary64.units = b.toBinary64.units :=
  le_antisymm (units_toBinary64_le h.le) (units_toBinary64_le h.ge)

-- The numbers that rounding leaves as they are: the floats, and the integers up to 2^53.
def Exact : Number → Prop
  | int n _ => n.natAbs ≤ 2 ^ 53
  | float _ => True

theorem log2_mul_one {n : Nat} (h : n ≠ 0) :
    Nat.log2 (n * Binary64.one) = Nat.log2 n + Binary64.finest := by
  rw [Nat.log2_eq_iff (Nat.mul_ne_zero h (by decide)), Binary64.one, Nat.one_shiftLeft,
    Nat.add_right_comm, Nat.pow_add, Nat.pow_add]
  exact ⟨Nat.mul_le_mul_right _ (Nat.log2_self_le h),
    Nat.mul_lt_mul_of_pos_right Nat.lt_log2_self (Nat.two_pow_pos _)⟩

theorem size_toBinary64_of_exact {a : Number} (h : a.Exact) :
    a.toBinary64.size = a.units.natAbs := by
  cases a with
  | float x => exact x.natAbs_units.symm
  | int n fits =>
      rw [(Binary64.size_of_code_eq_codeOfSize (code_toBinary64 _)).1]
      apply roundDiv_mul_cancel (Nat.two_pow_pos _)
      rw [units, Int.natAbs_mul, Int.natAbs_natCast]
      have hbound : n.natAbs ≤ 2 ^ 53 := h
      generalize n.natAbs = m at hbound
      by_cases hm : m = 0
      · simp [hm]
      · rw [log2_mul_one hm, Binary64.one, Nat.one_shiftLeft]
        rcases Nat.lt_or_eq_of_le hbound with hlt | rfl
        · have hlog := (Nat.log2_lt hm).mpr hlt
          exact Dvd.dvd.mul_left (Nat.pow_dvd_pow 2 (by omega)) m
        · rw [Nat.log2_two_pow, ← Nat.pow_add]
          exact Nat.pow_dvd_pow 2 (by omega)

theorem units_toBinary64_of_exact {a : Number} (h : a.Exact) : a.toBinary64.units = a.units := by
  have hsign := a.units_sign
  rw [units_toBinary64, size_toBinary64_of_exact h]
  split_ifs at hsign ⊢ <;> omega

theorem isInteger_iff {a : Number} : a.isInteger = true ↔ ∃ n : ℤ, a.value = n := by
  cases a with
  | int n fits => exact iff_of_true rfl ⟨n, value_int n fits⟩
  | float x =>
      have hdvd : (∃ n : ℤ, (float x).value = n) ↔ (Binary64.one : ℤ) ∣ x.units := by
        simp only [value, units, div_eq_iff (ne_of_gt one_pos)]
        constructor
        · rintro ⟨n, hn⟩
          exact ⟨n, by rw [mul_comm]; exact_mod_cast hn⟩
        · rintro ⟨n, hn⟩
          exact ⟨n, by rw [hn, mul_comm]; push_cast; rfl⟩
      rw [hdvd, isInteger, Binary64.isIntegral, beq_iff_eq, ← Nat.dvd_iff_mod_eq_zero,
        ← x.natAbs_units, ← Int.natCast_dvd]

-- Two numbers that the checks cannot tell apart, although their values may differ.
def Merged (a b : Number) : Prop :=
  a.toBinary64.units = b.toBinary64.units

-- The order of the roundings is the order of the values, except between merged numbers.
theorem not_lt_toBinary64_iff {a b : Number} :
    ¬b.toBinary64.units < a.toBinary64.units ↔ a.value ≤ b.value ∨ Merged a b := by
  rw [value_le_iff, Merged, not_lt]
  constructor
  · intro h
    by_cases hab : a.units ≤ b.units
    · exact .inl hab
    · exact .inr (le_antisymm h (units_toBinary64_le (le_of_not_ge hab)))
  · rintro (h | h)
    · exact units_toBinary64_le h
    · exact h.le

-- Different numbers are merged only if one of them is an integer beyond 2^53.
theorem Merged.value_eq {a b : Number} (h : Merged a b) (ha : a.Exact) (hb : b.Exact) :
    a.value = b.value := by
  rw [value_inj, ← units_toBinary64_of_exact ha, ← units_toBinary64_of_exact hb]
  exact h

-- The last integer up to which rounding changes nothing, and the next one, which it takes there.
def twoPow53 : Number := .int 9007199254740992 (by decide)

def nextTwoPow53 : Number := .int 9007199254740993 (by decide)

theorem twoPow53_lt_next : twoPow53.value < nextTwoPow53.value := by
  rw [value_lt_iff]
  decide

end Number

end Rulebook
