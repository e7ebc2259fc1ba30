import Rulebook.Number.Binary64

namespace Rulebook

-- The integer nearest to n / d; a half goes to the even neighbour.
def roundDiv (n d : Nat) : Nat :=
  if 2 * (n % d) < d then n / d
  else if d < 2 * (n % d) then n / d + 1
  else n / d + n / d % 2

namespace Binary64

-- The code of the number nearest to num / den. The mantissa has at most 53 bits,
-- and a mantissa that rounds up to 2^53 is the first one of the next exponent.
def nearestCode (num den : Nat) : Nat :=
  let scaled := num <<< finest
  let shift := Nat.log2 (scaled / den) - 52
  (shift <<< 52) + roundDiv scaled (den <<< shift)

-- The number nearest to ± num / den, unless it is too large.
def nearest? (negative : Bool) (num den : Nat) : Option Binary64 :=
  if h : nearestCode num den < 2047 <<< 52 then some ⟨negative, ⟨nearestCode num den, h⟩⟩
  else none

private theorem roundDiv_le (n d : Nat) : roundDiv n d ≤ n / d + 1 := by
  unfold roundDiv
  split
  · omega
  · split
    · omega
    · omega

theorem nearestCode_lt {n : Nat} (h : n < 1 <<< 65) : nearestCode n 1 < 2047 <<< 52 := by
  unfold nearestCode
  simp only [Nat.div_one, Nat.shiftLeft_eq, Nat.one_mul] at h ⊢
  generalize hs : n * 2 ^ finest = scaled
  generalize hk : Nat.log2 scaled - 52 = shift
  have hround := roundDiv_le scaled (2 ^ shift)
  have hlog : scaled < 2 ^ (Nat.log2 scaled + 1) := Nat.lt_log2_self
  have hbits : scaled < 2 ^ (65 + finest) := by
    rw [← hs, Nat.pow_add]
    exact (Nat.mul_lt_mul_right (Nat.two_pow_pos finest)).2 h
  have hdiv : scaled / 2 ^ shift < 2 ^ 53 := by
    rw [Nat.div_lt_iff_lt_mul (Nat.two_pow_pos _), ← Nat.pow_add]
    exact Nat.lt_of_lt_of_le hlog (Nat.pow_le_pow_right (by decide) (by omega))
  have hshift : shift ≤ 1087 := by
    by_cases hz : scaled = 0
    · subst hz
      simp at hk
      omega
    · have hlength := (Nat.log2_lt hz).2 hbits
      simp only [finest] at hlength
      omega
  have hmul : shift * 2 ^ 52 ≤ 1087 * 2 ^ 52 := Nat.mul_le_mul_right _ hshift
  omega

-- The number nearest to an integer of at most 65 bits.
def ofInt (n : Int) (h : n.natAbs < 1 <<< 65) : Binary64 :=
  ⟨decide (n < 0), ⟨nearestCode n.natAbs 1, nearestCode_lt h⟩⟩

end Binary64

end Rulebook
