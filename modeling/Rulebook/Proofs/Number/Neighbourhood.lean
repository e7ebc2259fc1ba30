import Mathlib.Tactic.Linarith
import Rulebook.Number.Shortest
import Rulebook.Proofs.Number.Decimal
import Rulebook.Proofs.Number.Magnitude

namespace Rulebook.Binary64

namespace Neighbourhood

-- Whether a decimal lies inside is a matter of its value.
theorem contains_iff (b : Neighbourhood) (d : Decimal) :
    b.contains d = true ↔
      if b.closed then (b.low : ℚ) ≤ 4 * one * d.value ∧ 4 * one * d.value ≤ b.high
      else (b.low : ℚ) < 4 * one * d.value ∧ 4 * one * d.value < b.high := by
  have hpos : (0 : ℚ) < d.denominator := by exact_mod_cast d.denominator_pos
  have hvalue : 4 * one * d.value = (d.numerator * (4 * one) : ℕ) / d.denominator := by
    rw [d.value_eq_div]
    push_cast
    ring
  rw [hvalue, contains]
  split_ifs with hclosed
  · rw [Bool.and_eq_true, decide_eq_true_iff, decide_eq_true_iff, le_div_iff₀ hpos,
      div_le_iff₀ hpos]
    norm_cast
  · rw [Bool.and_eq_true, decide_eq_true_iff, decide_eq_true_iff, lt_div_iff₀ hpos,
      div_lt_iff₀ hpos]
    norm_cast

variable {b c : Neighbourhood} {d e : Decimal}

theorem contains_eq_of_value_eq (h : d.value = e.value) : b.contains d = b.contains e := by
  rw [Bool.eq_iff_iff, contains_iff, contains_iff, h]

theorem contains_of_choose_eq_some {below above : Decimal}
    (h : b.choose below above = some d) : b.contains d = true := by
  rw [choose] at h
  split at h
  · cases h
  · cases h
    assumption
  · cases h
    assumption
  · split_ifs at h <;> cases h <;> assumption

theorem contains_of_onGrid_eq_some {exponent : Int} (h : b.onGrid exponent = some d) :
    b.contains d = true :=
  contains_of_choose_eq_some h

-- One lies below the other, and a common end belongs to one of them at most.
def Below (b c : Neighbourhood) : Prop :=
  b.high ≤ c.low ∧ (b.closed = true → c.closed = true → b.high < c.low)

theorem Below.not_contains (h : Below b c) (hb : b.contains d = true) : c.contains d ≠ true := by
  intro hc
  obtain ⟨hle, hlt⟩ := h
  rw [contains_iff] at hb hc
  have hends : (b.high : ℚ) ≤ c.low := by exact_mod_cast hle
  by_cases hclosed : b.closed = true ∧ c.closed = true
  · have hgap : (b.high : ℚ) < c.low := by exact_mod_cast hlt hclosed.1 hclosed.2
    rw [if_pos hclosed.1] at hb
    rw [if_pos hclosed.2] at hc
    linarith
  · split_ifs at hb hc with hbclosed hcclosed
    · exact hclosed ⟨hbclosed, hcclosed⟩
    all_goals linarith

end Neighbourhood

section

variable (x : Binary64)

theorem centre_neighbourhood : x.neighbourhood.centre = 4 * (x.mantissa * 2 ^ x.shift) := by
  rw [neighbourhood, size, Nat.shiftLeft_eq]

theorem high_neighbourhood :
    x.neighbourhood.high = 4 * (x.mantissa * 2 ^ x.shift) + 2 * 2 ^ x.shift := by
  simp only [neighbourhood, size, Nat.shiftLeft_eq, Nat.one_mul]

theorem low_neighbourhood :
    x.neighbourhood.low = 4 * (x.mantissa * 2 ^ x.shift) -
      if x.mantissa = 2 ^ 52 ∧ 0 < x.shift then 2 ^ x.shift else 2 * 2 ^ x.shift := by
  simp only [neighbourhood, size, Nat.shiftLeft_eq, Nat.one_mul]

theorem closed_neighbourhood : x.neighbourhood.closed = true ↔ x.mantissa % 2 = 0 :=
  beq_iff_eq

-- The magnitude itself lies inside. At an odd mantissa, where the ends are excluded, it is not
-- zero and hence above its lower end.
theorem contains_of_value_eq {d : Decimal} (h : 4 * one * d.value = x.neighbourhood.centre) :
    x.neighbourhood.contains d = true := by
  have hpow := Nat.two_pow_pos x.shift
  have hlow := x.low_neighbourhood
  have hhigh := x.high_neighbourhood
  have hcentre := x.centre_neighbourhood
  rw [Neighbourhood.contains_iff, h]
  split_ifs with hclosed
  · constructor <;> norm_cast <;> omega
  · have hmantissa : 0 < x.mantissa := by
      rw [closed_neighbourhood] at hclosed
      omega
    have hsize := Nat.mul_pos hmantissa hpow
    constructor <;> norm_cast <;> split_ifs at hlow <;> omega

theorem value_exact : 4 * one * x.exact.value = x.neighbourhood.centre := by
  have hone : (one : ℚ) = 2 ^ finest := by
    rw [one, Nat.one_shiftLeft, Nat.cast_pow, Nat.cast_two]
  simp only [Decimal.value, exact, neighbourhood, zpow_neg, zpow_natCast, hone, Nat.pow_eq]
  generalize finest = f
  have hten : (10 : ℚ) ^ f = 2 ^ f * 5 ^ f := by
    rw [← mul_pow]
    norm_num
  rw [hten]
  push_cast
  field_simp

-- What is printed lies inside, whether it has few digits or all of them.
theorem contains_shortest : x.neighbourhood.contains x.shortest = true := by
  rw [shortest]
  generalize ((Text.natDigits (x.size * Nat.pow 10 finest / one)).length - 1 - finest : Int) =
    leading
  cases hfound : (List.range 17).findSome? fun n : Nat => x.neighbourhood.onGrid (leading - n) with
  | none => exact x.contains_of_value_eq x.value_exact
  | some d =>
      obtain ⟨n, -, hgrid⟩ := List.exists_of_findSome?_eq_some hfound
      exact Neighbourhood.contains_of_onGrid_eq_some hgrid

end

variable {x y : Binary64}

theorem below_iff : x.neighbourhood.Below y.neighbourhood ↔
    x.neighbourhood.high ≤ y.neighbourhood.low ∧ (x.mantissa % 2 = 0 → y.mantissa % 2 = 0 →
      x.neighbourhood.high < y.neighbourhood.low) := by
  rw [Neighbourhood.Below, closed_neighbourhood, closed_neighbourhood]

-- Within one exponent, neighbours meet halfway, and of two neighbours one is odd.
theorem below_of_shift_eq (hshift : x.shift = y.shift) (h : x.mantissa < y.mantissa) :
    x.neighbourhood.Below y.neighbourhood := by
  have hpow := Nat.two_pow_pos y.shift
  have hregular : ¬(y.mantissa = 2 ^ 52 ∧ 0 < y.shift) := by
    rintro ⟨hpower, hpositive⟩
    have hleading : 2 ^ 52 ≤ x.mantissa := le_mantissa_of_shift_pos (by omega)
    omega
  rw [below_iff, high_neighbourhood, low_neighbourhood, if_neg hregular, hshift]
  generalize 2 ^ y.shift = g at hpow ⊢
  have hstep (gap : Nat) (hgap : x.mantissa + gap ≤ y.mantissa) :
      x.mantissa * g + gap * g ≤ y.mantissa * g := by
    rw [← Nat.add_mul]
    exact Nat.mul_le_mul_right g hgap
  have hnext := hstep 1 (by omega)
  refine ⟨by omega, fun _ _ => ?_⟩
  have := hstep 2 (by omega)
  omega

-- The gaps of a greater exponent are at least twice as wide, so the half gap below a power of
-- two is no wider than the one above the last mantissa before it, which is odd.
theorem below_of_shift_lt (h : x.shift < y.shift) : x.neighbourhood.Below y.neighbourhood := by
  have hmantissa := x.mantissa_lt
  have hpow := Nat.two_pow_pos x.shift
  have hleading : 2 ^ 52 ≤ y.mantissa := le_mantissa_of_shift_pos (by omega)
  have hdouble : 2 * 2 ^ x.shift ≤ 2 ^ y.shift := by
    rw [← Nat.pow_succ']
    exact Nat.pow_le_pow_right (by decide) h
  rw [below_iff, high_neighbourhood, low_neighbourhood]
  generalize 2 ^ x.shift = g at hpow hdouble ⊢
  generalize 2 ^ y.shift = k at hdouble ⊢
  have hupper (bound : Nat) (hbound : x.mantissa ≤ bound) : x.mantissa * g ≤ bound * g :=
    Nat.mul_le_mul_right g hbound
  have hlast := hupper (2 ^ 53 - 1) (by omega)
  split_ifs with hpower
  · rw [hpower.1]
    refine ⟨by omega, fun heven _ => ?_⟩
    have := hupper (2 ^ 53 - 2) (by omega)
    omega
  · have hlower : (2 ^ 52 + 1) * k ≤ y.mantissa * k := Nat.mul_le_mul_right k (by omega)
    exact ⟨by omega, fun _ _ => by omega⟩

theorem below_neighbourhood (h : x.code < y.code) : x.neighbourhood.Below y.neighbourhood := by
  have hx := x.mantissa_lt
  have hy := y.mantissa_lt
  have hcode : x.shift * 2 ^ 52 + x.mantissa < y.shift * 2 ^ 52 + y.mantissa := by
    rw [← code_eq, ← code_eq]
    exact h
  rcases Nat.lt_trichotomy x.shift y.shift with hlt | heq | hgt
  · exact below_of_shift_lt hlt
  · exact below_of_shift_eq heq (by omega)
  · have hleading : 2 ^ 52 ≤ x.mantissa := le_mantissa_of_shift_pos (by omega)
    omega

-- What is printed for a magnitude is printed for no other.
theorem code_eq_of_value_shortest_eq (h : x.shortest.value = y.shortest.value) :
    x.code = y.code := by
  have hcontains : x.neighbourhood.contains y.shortest = true := by
    rw [← Neighbourhood.contains_eq_of_value_eq h]
    exact x.contains_shortest
  rcases Nat.lt_trichotomy x.code.val y.code.val with hlt | heq | hgt
  · exact absurd y.contains_shortest ((below_neighbourhood hlt).not_contains hcontains)
  · exact Fin.ext heq
  · exact absurd hcontains ((below_neighbourhood hgt).not_contains y.contains_shortest)

end Rulebook.Binary64
