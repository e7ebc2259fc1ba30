import Mathlib.Algebra.Order.Field.Rat
import Mathlib.Algebra.Order.Field.Basic
import Mathlib.Data.List.Basic
import Mathlib.Tactic.FieldSimp
import Mathlib.Tactic.Ring
import Mathlib.Tactic.SplitIfs
import Rulebook.Number.Scientific
import Rulebook.Proofs.Text.Digits

namespace Rulebook

namespace Text

theorem natOfDigits_append (cs ds : List Char) :
    natOfDigits (cs ++ ds) = 10 ^ ds.length * natOfDigits cs + natOfDigits ds := by
  have happend : natOfDigits (cs ++ ds) = Nat.ofDigitChars 10 ds (natOfDigits cs) :=
    Nat.ofDigitChars_append 0
  rw [happend, Nat.ofDigitChars_eq_ofDigitChars_zero]
  rfl

theorem natOfDigits_replicate (count : Nat) : natOfDigits (List.replicate count '0') = 0 :=
  Nat.ofDigitChars_replicate_zero

end Text

namespace Decimal

-- The exact value.
def value (d : Decimal) : ℚ :=
  d.digits * 10 ^ d.exponent

theorem value_eq_div (d : Decimal) : d.value = d.numerator / d.denominator := by
  obtain ⟨digits, exponent⟩ := d
  cases exponent with
  | ofNat n => simp [value, numerator, denominator]
  | negSucc n => simp [value, numerator, denominator, Int.neg_negSucc, div_eq_mul_inv]

theorem denominator_pos (d : Decimal) : 0 < d.denominator :=
  Nat.pow_pos (by decide)

-- The digits, with the zeros at their end.
theorem exists_zeros (d : Decimal) :
    ∃ zeros, Text.natDigits d.digits = d.significant ++ List.replicate zeros '0' := by
  generalize hlast : (Text.natDigits d.digits).reverse.takeWhile (· == '0') = last
  have hzeros : ∀ c ∈ last.reverse, c = '0' := by
    intro c hc
    rw [List.mem_reverse, ← hlast] at hc
    simpa using List.mem_takeWhile_imp hc
  have hdigits : (Text.natDigits d.digits).reverse = last ++ d.significant.reverse := by
    rw [← hlast, significant, List.reverse_reverse, List.takeWhile_append_dropWhile]
  refine ⟨last.length, ?_⟩
  rw [← List.length_reverse, ← List.eq_replicate_of_mem hzeros,
    ← List.reverse_reverse (Text.natDigits d.digits), hdigits, List.reverse_append,
    List.reverse_reverse]

theorem value_significant (d : Decimal) :
    d.value = Text.natOfDigits d.significant * 10 ^ (d.leading + 1 - d.significant.length) := by
  obtain ⟨zeros, hzeros⟩ := d.exists_zeros
  have hdigits : d.digits = 10 ^ zeros * Text.natOfDigits d.significant := by
    rw [← Text.natOfDigits_natDigits d.digits, hzeros, Text.natOfDigits_append,
      Text.natOfDigits_replicate, List.length_replicate, Nat.add_zero]
  have hexponent : d.leading + 1 - d.significant.length = zeros + d.exponent := by
    rw [leading, hzeros, List.length_append, List.length_replicate]
    omega
  rw [value, hexponent, hdigits, zpow_add₀ (by norm_num)]
  push_cast
  rw [zpow_natCast]
  ring

end Decimal

namespace Numeral

theorem value_decimal (n : Numeral) :
    n.decimal.value = Text.natOfDigits n.digits * 10 ^ (n.power - (n.fraction.getD []).length) :=
  rfl

-- Digits around a point, of which the first one has the power of ten. The zeros that are put
-- before and after them are made up for by the exponent.
structure Spells (ds : List Char) (leading : Int) (n : Numeral) : Prop where
  wellFormed : n.WellFormed
  unsigned : n.sign = none
  pointed : n.isInteger = false
  digits : ∃ before after,
    n.digits = List.replicate before '0' ++ (ds ++ List.replicate after '0') ∧
      (ds ≠ [] → n.power - (n.fraction.getD []).length = leading + 1 - ds.length - after)

theorem Spells.value {ds : List Char} {leading : Int} {n : Numeral} (h : Spells ds leading n) :
    n.decimal.value = Text.natOfDigits ds * 10 ^ (leading + 1 - ds.length) := by
  obtain ⟨before, after, hdigits, hexponent⟩ := h.digits
  have hvalue : Text.natOfDigits n.digits = 10 ^ after * Text.natOfDigits ds := by
    simp only [hdigits, Text.natOfDigits_append, Text.natOfDigits_replicate, List.length_replicate,
      Nat.mul_zero, Nat.zero_add, Nat.add_zero]
  rw [value_decimal, hvalue]
  by_cases hds : ds = []
  · subst hds
    simp [Text.natOfDigits]
  · have hten : (10 : ℚ) ≠ 0 := by norm_num
    rw [hexponent hds, zpow_sub₀ hten _ (after : ℤ), zpow_natCast]
    push_cast
    field_simp

-- Zeros after the point come first.
def belowOne (ds : List Char) (zeros : Nat) : Numeral :=
  { sign := none, whole := ['0'], fraction := some (List.replicate zeros '0' ++ ds)
    exponent := none }

-- The first digits stand before the point, and there is always one after it.
def across (ds : List Char) (width : Nat) : Numeral :=
  { sign := none, whole := ds.take width ++ List.replicate (width - ds.length) '0'
    fraction := some (if (ds.drop width).isEmpty then ['0'] else ds.drop width)
    exponent := none }

-- One digit stands before the point.
def scientific (ds : List Char) (leading : Int) : Numeral :=
  { sign := none, whole := ds.take 1, fraction := if ds.length ≤ 1 then none else some (ds.drop 1)
    exponent := some (some (if leading < 0 then '-' else '+'), Text.natDigits leading.natAbs) }

theorem power_scientific (ds : List Char) (leading : Int) :
    (scientific ds leading).power = leading := by
  have hread := Text.natOfDigits_natDigits leading.natAbs
  by_cases hsign : leading < 0
  · simp only [power, scientific, if_pos hsign, hread]
    omega
  · simp only [power, scientific, if_neg hsign]
    change (Text.natOfDigits (Text.natDigits leading.natAbs) : Int) = leading
    omega

theorem isDigit_of_mem_replicate (count : Nat) :
    ∀ c ∈ List.replicate count '0', c.isDigit = true := by
  intro c hc
  rw [List.eq_of_mem_replicate hc]
  rfl

section Forms

variable {ds : List Char} (hds : ∀ c ∈ ds, c.isDigit = true)

include hds

theorem spells_belowOne (zeros : Nat) : Spells ds (-(zeros : Int) - 1) (belowOne ds zeros) where
  wellFormed := by
    refine ⟨nofun, isDigit_of_mem_replicate 1, ?_, nofun⟩
    rintro _ ⟨⟩
    exact List.forall_mem_append.mpr ⟨isDigit_of_mem_replicate zeros, hds⟩
  unsigned := rfl
  pointed := rfl
  digits := by
    refine ⟨zeros + 1, 0, ?_, fun _ => ?_⟩
    · simp [Numeral.digits, belowOne, List.replicate_succ]
    · simp [power, belowOne]
      omega

theorem spells_across (width : Nat) : Spells ds (width - 1) (across ds width) where
  wellFormed := by
    refine ⟨nofun, ?_, ?_, nofun⟩
    · exact List.forall_mem_append.mpr
        ⟨fun c hc => hds c (List.mem_of_mem_take hc), isDigit_of_mem_replicate _⟩
    · rintro _ ⟨⟩
      split_ifs
      · exact isDigit_of_mem_replicate 1
      · exact fun c hc => hds c (List.mem_of_mem_drop hc)
  unsigned := rfl
  pointed := rfl
  digits := by
    by_cases hlength : ds.length ≤ width
    · have hdrop : ds.drop width = [] := List.drop_eq_nil_of_le hlength
      refine ⟨0, width - ds.length + 1, ?_, fun _ => ?_⟩
      · simp [Numeral.digits, across, hdrop, List.take_of_length_le hlength, List.replicate_succ']
      · simp [power, across, hdrop]
        omega
    · have hdrop : ds.drop width ≠ [] := by simpa using hlength
      refine ⟨0, 0, ?_, fun _ => ?_⟩
      · simp [Numeral.digits, across, hdrop, Nat.sub_eq_zero_of_le (Nat.le_of_not_le hlength)]
      · simp [power, across, hdrop]
        omega

theorem spells_scientific (leading : Int) : Spells ds leading (scientific ds leading) where
  wellFormed := by
    refine ⟨nofun, fun c hc => hds c (List.mem_of_mem_take hc), ?_, ?_⟩
    · intro digits hdigits c hc
      simp only [scientific] at hdigits
      split_ifs at hdigits
      · cases hdigits
      · cases hdigits
        exact hds c (List.mem_of_mem_drop hc)
    · rintro _ ⟨⟩
      refine ⟨?_, Text.isDigitRun_natDigits _⟩
      rintro _ ⟨⟩
      split_ifs <;> simp
  unsigned := rfl
  pointed := Bool.and_false _
  digits := by
    refine ⟨0, 0, ?_, fun hne => ?_⟩
    · by_cases hlength : ds.length ≤ 1
      · simp [Numeral.digits, scientific, hlength, List.take_of_length_le hlength]
      · simpa [Numeral.digits, scientific, hlength] using List.take_append_drop 1 ds
    · have hpos := List.length_pos_iff.mpr hne
      rw [power_scientific]
      by_cases hlength : ds.length ≤ 1
      · simp [scientific, hlength]
        omega
      · simp [scientific, hlength]
        omega

end Forms

end Numeral

namespace Decimal

-- The numeral that a decimal is written as.
def numeral (layout : Layout) (d : Decimal) : Numeral :=
  if layout.plainFrom ≤ d.leading ∧ d.leading ≤ layout.plainTo then
    if d.leading < 0 then .belowOne d.significant ((-d.leading).toNat - 1)
    else .across d.significant (d.leading.toNat + 1)
  else .scientific d.significant d.leading

variable (layout : Layout) (d : Decimal)

theorem write_numeral : (d.numeral layout).write = d.write layout := by
  rw [write, numeral]
  split_ifs <;>
    simp [Numeral.write, Numeral.fractionText, Numeral.exponentText, Numeral.belowOne,
      Numeral.across, Numeral.scientific, *]

theorem isDigit_of_mem_significant {c : Char} (h : c ∈ d.significant) : c.isDigit = true := by
  obtain ⟨zeros, hzeros⟩ := d.exists_zeros
  apply Text.isDigit_of_mem_natDigits (n := d.digits)
  rw [hzeros]
  exact List.mem_append_left _ h

theorem spells_numeral : Numeral.Spells d.significant d.leading (d.numeral layout) := by
  have hds : ∀ c ∈ d.significant, c.isDigit = true := fun c => d.isDigit_of_mem_significant
  rw [numeral]
  split_ifs with hplain hsmall
  · have h := Numeral.spells_belowOne hds ((-d.leading).toNat - 1)
    rwa [show -(((-d.leading).toNat - 1 : ℕ) : Int) - 1 = d.leading by omega] at h
  · have h := Numeral.spells_across hds (d.leading.toNat + 1)
    rwa [show ((d.leading.toNat + 1 : ℕ) : Int) - 1 = d.leading by omega] at h
  · exact Numeral.spells_scientific hds d.leading

theorem value_numeral : (d.numeral layout).decimal.value = d.value := by
  rw [(d.spells_numeral layout).value, value_significant]

end Decimal

end Rulebook
