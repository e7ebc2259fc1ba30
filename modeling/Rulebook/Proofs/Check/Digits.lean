import Rulebook.Proofs.Check.Forms
import Rulebook.Proofs.Check.NumberText
import Rulebook.Proofs.Check.PasswordRules
import Rulebook.Regex.Engine

namespace Rulebook

open Outcome

-- A text that is written as a run of digits has neither a sign nor a point nor an exponent.
theorem Numeral.isInteger_of_isDigitRun {n : Numeral} (h : Text.isDigitRun n.write = true) :
    n.isInteger = true := by
  have hnot {c : Char} (hc : c.isDigit = false) : c ∉ n.write := Text.notMem_of_isDigitRun h hc
  have hpoint : n.fraction = none := by
    cases hfraction : n.fraction with
    | none => rfl
    | some digits => exact absurd (by simp [write, fractionText, hfraction]) (hnot (c := '.') rfl)
  have hexponent : n.exponent = none := by
    cases hexponent : n.exponent with
    | none => rfl
    | some e => exact absurd (by simp [write, exponentText, hexponent]) (hnot (c := 'e') rfl)
  rw [isInteger, hpoint, hexponent]
  rfl

-- The numbers that are written in digits alone are the natural numbers below 10^21, and these are
-- written in their own digits.
theorem Number.isDigitRun_plain_iff {a : Number} {digits : List Char} :
    a.plain = digits ∧ Text.isDigitRun digits = true ↔
      ∃ k : Nat, a.value = k ∧ k < 10 ^ 21 ∧ digits = Text.natDigits k := by
  constructor
  · rintro ⟨rfl, hrun⟩
    rcases a.plain_cases with ⟨n, ⟨hvalue, hbelow⟩, htext⟩ | ⟨x, rfl, hlong, htext⟩
    · rw [htext, Numeral.write_ofInt, Text.isDigitRun_intDigits_iff] at hrun
      obtain ⟨k, rfl⟩ := Int.eq_ofNat_of_zero_le hrun
      refine ⟨k, by simpa using hvalue, by simpa using hbelow, ?_⟩
      rw [htext, Numeral.write_ofInt]
      rfl
    · rw [htext] at hrun
      have hpointed : (Numeral.ofFloat x).isInteger = false :=
        (x.shortest.spells_numeral Number.floatLayout).pointed
      cases hpointed.symm.trans (Numeral.isInteger_of_isDigitRun hrun)
  · rintro ⟨k, hvalue, hbelow, rfl⟩
    have hshort : a.IsShort k := ⟨by simpa using hvalue, by simpa using hbelow⟩
    refine ⟨?_, Text.isDigitRun_natDigits k⟩
    rcases a.plain_cases with ⟨n, ⟨hn, -⟩, htext⟩ | ⟨x, rfl, hlong, -⟩
    · obtain rfl : n = k := by
        rw [hn] at hvalue
        exact_mod_cast hvalue
      rw [htext, Numeral.write_ofInt]
      rfl
    · exact absurd hshort (hlong k)

namespace Json

-- The values that are written in decimal digits, as many of them as are asked for. A number is
-- written in the digits of its value, whatever it was written as in the data.
inductive HasDigits (n : Nat) : Json → Prop
  | text {s : String} (hne : s ≠ "") (hdigits : ∀ c ∈ s.toList, '0' ≤ c ∧ c ≤ '9')
      (hlength : 0 < n → s.length = n) : HasDigits n (.str s)
  | number {a : Number} {k : Nat} (hvalue : a.value = k) (hbelow : k < 10 ^ 21)
      (hlength : 0 < n → (Text.natDigits k).length = n) : HasDigits n (.num a)

theorem hasDigits_str_iff {n : Nat} {s : String} :
    (str s).HasDigits n ↔ Text.isDigitRun s.toList = true ∧ (0 < n → s.length = n) := by
  rw [Text.isDigitRun_iff]
  simp only [Text.isDigit_iff]
  constructor
  · rintro ⟨hne, hdigits, hlength⟩
    exact ⟨⟨by simpa using hne, hdigits⟩, hlength⟩
  · rintro ⟨⟨hne, hdigits⟩, hlength⟩
    exact .text (by simpa using hne) hdigits hlength

theorem hasDigits_num_iff {n : Nat} {a : Number} :
    (num a).HasDigits n ↔ Text.isDigitRun a.plain = true ∧ (0 < n → a.plain.length = n) := by
  constructor
  · intro h
    cases h with
    | number hvalue hbelow hlength =>
        obtain ⟨htext, hrun⟩ := Number.isDigitRun_plain_iff.mpr ⟨_, hvalue, hbelow, rfl⟩
        rw [htext]
        exact ⟨hrun, hlength⟩
  · rintro ⟨hrun, hlength⟩
    obtain ⟨k, hvalue, hbelow, htext⟩ := Number.isDigitRun_plain_iff.mp ⟨rfl, hrun⟩
    exact .number hvalue hbelow (htext ▸ hlength)

end Json

namespace Leaf

variable {n : Nat} {value : Json}

theorem digitsOf_iff : digitsOf n value = true ↔ value.HasDigits n := by
  have hcount (cs : List Char) : (n == 0 || cs.length == n) = true ↔ (0 < n → cs.length = n) := by
    rw [Bool.or_eq_true, beq_iff_eq, beq_iff_eq, Nat.pos_iff_ne_zero, or_iff_not_imp_left]
  have hdigits (s : String) : value.scalarText = some s → (digitsOf n value = true ↔
      Text.isDigitRun s.toList = true ∧ (0 < n → s.toList.length = n)) := by
    intro htext
    rw [digitsOf, htext, Option.any_some, Bool.and_eq_true, hcount]
  cases value with
  | str s => rw [hdigits s rfl, Json.hasDigits_str_iff, String.length_toList]
  | num a => rw [hdigits _ rfl, Json.hasDigits_num_iff, String.toList_ofList]
  | _ =>
      refine iff_of_false (by simp [digitsOf, Json.scalarText]) ?_
      rintro ⟨⟩

end Leaf

namespace Builtin

variable {args : Args} {n : Nat}

-- The two checks of digits differ in the count that they have if none is given.
theorem build_numeric [Engine] (h : args.CountIs "len" 0 n) (parts : List (String × Rule)) :
    numeric.build args parts = .ok (.leaf (.numeric n)) := by
  obtain ⟨count, hcount, rfl⟩ := Args.countIs_iff.mp h
  rw [build, hcount]
  rfl

theorem build_captcha [Engine] (h : args.CountIs "len" 6 n) (parts : List (String × Rule)) :
    captcha.build args parts = .ok (.leaf (.captcha n)) := by
  obtain ⟨count, hcount, rfl⟩ := Args.countIs_iff.mp h
  rw [build, hcount]
  rfl

theorem build_id [Engine] (h : ∀ name ∈ ["allowEmpty", "empty"], args.get? name = none)
    (parts : List (String × Rule)) :
    id.build args parts = .ok (.leaf (.text "id" { format := some Format.numberPattern })) := by
  obtain ⟨hfirst, hsecond⟩ : args.get? "allowEmpty" = none ∧ args.get? "empty" = none := by
    simpa using h
  have hstrict : allowEmpty args = .ok false := by
    simp only [allowEmpty, Args.flag, hfirst, hsecond]
    rfl
  rw [build, fixedText, hstrict]
  rfl

end Builtin

namespace Registry

variable {registry : Registry} {args other : Args}

-- The two checks of digits pass the same values, the texts and the numbers that are written in so
-- many digits. An identifier that may not be empty is a text that the first of them passes where
-- it is free how many digits there are.
theorem builds_digits [Engine] (hnumeric : registry.resolve args.rule = some (.builtin .numeric))
    (parts : List (String × Rule)) :
    (∀ n, args.CountIs "len" 0 n → registry.resolve other.rule = some (.builtin .captcha) →
      other.CountIs "len" 6 n →
      ∃ numeric captcha, registry.Builds args parts numeric ∧
        registry.Builds other parts captcha ∧
        numeric.PassesOnly (Json.HasDigits n) ∧ captcha.PassesOnly (Json.HasDigits n)) ∧
    (args.get? "len" = none → registry.resolve other.rule = some (.builtin .id) →
      (∀ name ∈ ["allowEmpty", "empty"], other.get? name = none) →
      ∃ numeric id, registry.Builds args parts numeric ∧ registry.Builds other parts id ∧
        numeric.PassesOnly (Json.HasDigits 0) ∧
        id.PassesOnly fun value => ∃ s, value = .str s ∧ value.HasDigits 0) := by
  have hdigits (n : Nat) : (Check.leaf (.numeric n)).PassesOnly (Json.HasDigits n) := by
    refine Check.passesOnly_leaf fun value context => ?_
    rw [Leaf.verdict, Verdict.when_eq_pass_iff, Leaf.digitsOf_iff]
  constructor
  · intro n hlen hcaptcha hotherLen
    refine ⟨_, _, ⟨_, hnumeric, Builtin.build_numeric hlen parts⟩,
      ⟨_, hcaptcha, Builtin.build_captcha hotherLen parts⟩, hdigits n, Check.passesOnly_leaf ?_⟩
    intro value context
    rw [Leaf.verdict, Verdict.when_eq_pass_iff, Leaf.digitsOf_iff]
  · intro hlen hid hstrict
    have hfree : args.CountIs "len" 0 0 := by rw [Args.CountIs, hlen]
    refine ⟨_, _, ⟨_, hnumeric, Builtin.build_numeric hfree parts⟩,
      ⟨_, hid, Builtin.build_id hstrict parts⟩, hdigits 0, Check.passesOnly_leaf ?_⟩
    intro value context
    rw [Leaf.verdict, TextRules.verdict_format]
    refine exists_congr fun s => and_congr_right ?_
    rintro rfl
    have hne (h : Text.isDigitRun s.toList = true) : s ≠ "" := by
      rintro rfl
      cases h
    simp only [Json.hasDigits_str_iff, Pattern.isMatch, Format.numberPattern,
      Format.number_isMatch_iff]
    simpa using hne

end Registry

-- Four digits as a code and as a number, and identifiers.
namespace Pin

def args : Args :=
  { rule := "numeric", field := "pin", options := [("len", .str " 4 ")] }

def captchaArgs : Args :=
  { rule := "captcha", field := "pin", options := [("len", .num (.int 4 (by decide)))] }

def anyArgs : Args :=
  { rule := "numeric", field := "number", options := [] }

def idArgs : Args :=
  { rule := "id", field := "number", options := [] }

-- The float that is written as 1e3 or as 1000.0.
def thousand : Number := .float (Binary64.ofInt 1000 (by decide))

def run : Run :=
  ({} : Validator).run .null []

theorem hasDigits_thousand : (Json.num thousand).HasDigits 4 := by
  have hvalue : thousand.value = (1000 : Int) :=
    Number.value_float_eq_iff.mpr ⟨by decide +kernel, by decide +kernel⟩
  exact .number (k := 1000) hvalue (by decide) fun _ => by decide

-- Digits of another script are none.
theorem not_hasDigits_wide : ¬(Json.str "１２３４").HasDigits 4 := by
  rw [Json.hasDigits_str_iff]
  decide +kernel

end Pin

open scoped Regex

theorem Registry.builds_digits_pin :
    (Registry.resolve {} Pin.args.rule = some (.builtin .numeric) ∧ Pin.args.CountIs "len" 0 4 ∧
      Registry.resolve {} Pin.captchaArgs.rule = some (.builtin .captcha) ∧
      Pin.captchaArgs.CountIs "len" 6 4) ∧
    (∃ numeric captcha, Registry.Builds {} Pin.args [] numeric ∧
      Registry.Builds {} Pin.captchaArgs [] captcha ∧
      (Pin.run.check "numeric" (.num Pin.thousand) .null "pin" numeric = none ∧
        Pin.run.check "captcha" (.num Pin.thousand) .null "pin" captcha = none) ∧
      Pin.run.check "numeric" (.str "１２３４") .null "pin" numeric ≠ none ∧
      Pin.run.check "captcha" (.str "１２３４") .null "pin" captcha ≠ none) ∧
    (Pin.anyArgs.get? "len" = none ∧
      Registry.resolve {} Pin.idArgs.rule = some (.builtin .id) ∧
      ∀ name ∈ ["allowEmpty", "empty"], Pin.idArgs.get? name = none) ∧
    ∃ numeric id, Registry.Builds {} Pin.anyArgs [] numeric ∧
      Registry.Builds {} Pin.idArgs [] id ∧
      Pin.run.check "numeric" (.str "007") .null "number" numeric = none ∧
      Pin.run.check "id" (.str "007") .null "number" id = none := by
  have hnumeric : Registry.resolve {} Pin.args.rule = some (.builtin .numeric) := rfl
  have hany : Registry.resolve {} Pin.anyArgs.rule = some (.builtin .numeric) := rfl
  have hlen : Pin.args.CountIs "len" 0 4 := rfl
  have hcaptcha : Registry.resolve {} Pin.captchaArgs.rule = some (.builtin .captcha) := rfl
  have hcaptchaLen : Pin.captchaArgs.CountIs "len" 6 4 := rfl
  have hid : Registry.resolve {} Pin.idArgs.rule = some (.builtin .id) := rfl
  have hstrict : ∀ name ∈ ["allowEmpty", "empty"], Pin.idArgs.get? name = none := fun _ _ => rfl
  have hdigits : (Json.str "007").HasDigits 0 := Json.hasDigits_str_iff.mpr (by decide)
  obtain ⟨numeric, captcha, hbuilds, hother, hpasses, hotherPasses⟩ :=
    (builds_digits hnumeric []).1 4 hlen hcaptcha hcaptchaLen
  obtain ⟨free, id, hfree, hidBuilds, hfreePasses, hidPasses⟩ :=
    (builds_digits hany []).2 rfl hid hstrict
  refine ⟨⟨hnumeric, hlen, hcaptcha, hcaptchaLen⟩, ⟨numeric, captcha, hbuilds, hother, ⟨?_, ?_⟩,
    fun h => ?_, fun h => ?_⟩, ⟨rfl, hid, hstrict⟩, free, id, hfree, hidBuilds, ?_, ?_⟩
  · exact (hpasses Pin.run _ _ _ _).mpr Pin.hasDigits_thousand
  · exact (hotherPasses Pin.run _ _ _ _).mpr Pin.hasDigits_thousand
  · exact Pin.not_hasDigits_wide ((hpasses Pin.run _ _ _ _).mp h)
  · exact Pin.not_hasDigits_wide ((hotherPasses Pin.run _ _ _ _).mp h)
  · exact (hfreePasses Pin.run _ _ _ _).mpr hdigits
  · exact (hidPasses Pin.run _ _ _ _).mpr ⟨_, rfl, hdigits⟩

end Rulebook
