import Rulebook.Proofs.Number.Neighbourhood
import Rulebook.Proofs.Number.Value

namespace Rulebook

namespace Numeral

-- Numerals are told apart by their texts.
theorem write_inj {n m : Numeral} (hn : n.WellFormed) (hm : m.WellFormed) :
    n.write = m.write ↔ n = m := by
  constructor
  · intro h
    have hread : some n = some m := by rw [← read?_write hn, ← read?_write hm, h]
    exact Option.some.inj hread
  · exact congrArg write

def minus (negative : Bool) : Option Char :=
  if negative then some '-' else none

theorem eq_of_mem_minus {negative : Bool} {c : Char} (h : c ∈ minus negative) : c = '-' := by
  cases negative with
  | true => exact (Option.some.inj h).symm
  | false => cases h

theorem minus_inj {negative other : Bool} (h : minus negative = minus other) :
    negative = other := by
  cases negative <;> cases other <;> simp_all [minus]

def ofInt (n : Int) : Numeral :=
  { sign := minus (n < 0), whole := Text.natDigits n.natAbs
    fraction := none, exponent := none }

theorem write_ofInt (n : Int) : (ofInt n).write = Text.intDigits n := by
  cases n with
  | ofNat n => simp [write, ofInt, minus, fractionText, exponentText, Text.intDigits]
  | negSucc n => simp [write, ofInt, minus, fractionText, exponentText, Text.intDigits]

theorem wellFormed_ofInt (n : Int) : (ofInt n).WellFormed := by
  exact ⟨fun c hc => .inl (eq_of_mem_minus hc), fun c => Text.isDigit_of_mem_natDigits, nofun,
    nofun⟩

theorem ofInt_inj {n m : Int} : ofInt n = ofInt m ↔ n = m := by
  constructor
  · intro h
    have hsign : decide (n < 0) = decide (m < 0) := minus_inj (congrArg sign h)
    have hread (n : Int) : Text.natOfDigits (ofInt n).whole = n.natAbs :=
      Text.natOfDigits_natDigits n.natAbs
    have hsize : n.natAbs = m.natAbs := by rw [← hread, ← hread, h]
    rw [decide_eq_decide] at hsign
    omega
  · exact congrArg ofInt

-- The numeral that a float other than zero is written as.
def ofFloat (x : Binary64) : Numeral :=
  { x.shortest.numeral Number.floatLayout with sign := minus x.negative }

theorem write_ofFloat {x : Binary64} (hx : x.size ≠ 0) :
    (ofFloat x).write = Number.writeFloat x := by
  rw [Number.writeFloat, if_neg hx, ← Decimal.write_numeral]
  simp only [write, ofFloat, minus, (x.shortest.spells_numeral Number.floatLayout).unsigned]
  split_ifs <;> rfl

theorem wellFormed_ofFloat (x : Binary64) : (ofFloat x).WellFormed := by
  obtain ⟨-, hwhole, hfraction, hexponent⟩ :=
    (x.shortest.spells_numeral Number.floatLayout).wellFormed
  exact ⟨fun c hc => .inl (eq_of_mem_minus hc), hwhole, hfraction, hexponent⟩

theorem ofInt_ne_ofFloat (n : Int) (x : Binary64) : ofInt n ≠ ofFloat x := by
  intro h
  have hpointed : (ofFloat x).isInteger = false :=
    (x.shortest.spells_numeral Number.floatLayout).pointed
  rw [← h] at hpointed
  cases hpointed

theorem ofFloat_inj {x y : Binary64} : ofFloat x = ofFloat y ↔ x = y := by
  constructor
  · intro h
    have hsign : x.negative = y.negative := minus_inj (congrArg sign h)
    have hvalue (x : Binary64) : (ofFloat x).decimal.value = x.shortest.value :=
      x.shortest.value_numeral Number.floatLayout
    have hcode : x.code = y.code := by
      apply Binary64.code_eq_of_value_shortest_eq
      rw [← hvalue, ← hvalue, h]
    obtain ⟨negative, code⟩ := x
    obtain ⟨_, _⟩ := y
    obtain rfl : negative = _ := hsign
    obtain rfl : code = _ := hcode
    rfl
  · exact congrArg ofFloat

end Numeral

theorem Binary64.isIntegral_and_whole_iff {x : Binary64} {n : Int} :
    x.isIntegral = true ∧ x.whole = n ↔ x.units = n * one := by
  have hone : 0 < one := by decide
  have hcancel : (one : Int) ≠ 0 := by omega
  rw [isIntegral, beq_iff_eq, whole, units]
  constructor
  · rintro ⟨hdvd, rfl⟩
    have hsize : (x.size : Int) = (x.size / one : Nat) * one := by
      exact_mod_cast (Nat.div_mul_cancel (Nat.dvd_of_mod_eq_zero hdvd)).symm
    split_ifs
    · rw [Int.neg_mul, ← hsize]
    · exact hsize
  · intro h
    have hsize : x.size = n.natAbs * one := by
      rw [← Int.natAbs_natCast one, ← Int.natAbs_mul, ← h]
      split_ifs <;> omega
    refine ⟨hsize ▸ Nat.mul_mod_left _ _, ?_⟩
    rw [hsize, Nat.mul_div_cancel _ hone]
    apply Int.eq_of_mul_eq_mul_right hcancel
    rw [← h, hsize]
    split_ifs
    · rw [Int.neg_mul, Int.natCast_mul]
    · rw [Int.natCast_mul]

namespace Number

-- The numbers that are written as integers.
def IsShort (a : Number) (n : Int) : Prop :=
  a.value = n ∧ n.natAbs < 10 ^ 21

theorem value_float_eq_iff {x : Binary64} {n : Int} :
    (float x).value = n ↔ x.isIntegral = true ∧ x.whole = n := by
  rw [Binary64.isIntegral_and_whole_iff, value, units, div_eq_iff (ne_of_gt one_pos)]
  norm_cast

-- A number is written as an integer if it is a short one, and else as a float.
theorem plain_cases (a : Number) :
    (∃ n, a.IsShort n ∧ a.plain = (Numeral.ofInt n).write) ∨
      ∃ x, a = float x ∧ (∀ n, ¬a.IsShort n) ∧ a.plain = (Numeral.ofFloat x).write := by
  cases a with
  | int n fits =>
      refine .inl ⟨n, ⟨value_int n fits, by omega⟩, ?_⟩
      rw [plain, Numeral.write_ofInt]
  | float x =>
      by_cases hshort : x.isIntegral = true ∧ x.whole.natAbs < 10 ^ 21
      · obtain ⟨hintegral, hbound⟩ := hshort
        refine .inl ⟨x.whole, ⟨value_float_eq_iff.mpr ⟨hintegral, rfl⟩, hbound⟩, ?_⟩
        rw [plain, if_pos (by simpa [hintegral] using hbound), Numeral.write_ofInt]
      · have hlong (n : Int) : ¬(float x).IsShort n := by
          rintro ⟨hvalue, hbound⟩
          obtain ⟨hintegral, rfl⟩ := value_float_eq_iff.mp hvalue
          exact hshort ⟨hintegral, hbound⟩
        have hsize : x.size ≠ 0 := by
          intro hzero
          apply hshort
          simp [Binary64.isIntegral, Binary64.whole, hzero]
        refine .inr ⟨x, rfl, hlong, ?_⟩
        rw [plain, if_neg (by simpa using hshort), Numeral.write_ofFloat hsize]

-- Numbers of one value have one text, and numbers of one text have one value.
theorem plain_eq_iff {a b : Number} : a.plain = b.plain ↔ a.value = b.value := by
  rcases a.plain_cases with ⟨n, ha, hatext⟩ | ⟨x, rfl, ha, hatext⟩ <;>
    rcases b.plain_cases with ⟨m, hb, hbtext⟩ | ⟨y, rfl, hb, hbtext⟩ <;>
    rw [hatext, hbtext]
  · rw [Numeral.write_inj (Numeral.wellFormed_ofInt n) (Numeral.wellFormed_ofInt m),
      Numeral.ofInt_inj, ha.1, hb.1, Int.cast_inj]
  · rw [Numeral.write_inj (Numeral.wellFormed_ofInt n) (Numeral.wellFormed_ofFloat y)]
    refine iff_of_false (Numeral.ofInt_ne_ofFloat n y) fun h => ?_
    exact hb n ⟨h ▸ ha.1, ha.2⟩
  · rw [Numeral.write_inj (Numeral.wellFormed_ofFloat x) (Numeral.wellFormed_ofInt m)]
    refine iff_of_false (Numeral.ofInt_ne_ofFloat m x).symm fun h => ?_
    exact ha m ⟨h.trans hb.1, hb.2⟩
  · rw [Numeral.write_inj (Numeral.wellFormed_ofFloat x) (Numeral.wellFormed_ofFloat y),
      Numeral.ofFloat_inj]
    refine ⟨fun h => h ▸ rfl, fun h => ?_⟩
    obtain heq | ⟨hzero, -⟩ := Binary64.eq_or_size_eq_zero (value_inj.mp h)
    · exact heq
    · -- Both zeros are short.
      refine absurd ⟨value_float_eq_iff.mpr ⟨?_, rfl⟩, ?_⟩ (ha x.whole)
      · simp [Binary64.isIntegral, hzero]
      · simp [Binary64.whole, hzero]

end Number

end Rulebook
