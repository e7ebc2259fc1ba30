import Rulebook.Proofs.Check.TextDemands
import Rulebook.Proofs.Regex.Language
import Rulebook.Proofs.Registry.Described
import Rulebook.Proofs.Text.Digits
import Rulebook.Regex.Engine

namespace Rulebook

open Outcome

-- The texts of the forms that the catalogue knows.
namespace Form

-- Decimal digits of ASCII, so many of them.
def IsDigits (n : Nat) (text : List Char) : Prop :=
  text.length = n ∧ ∀ c ∈ text, '0' ≤ c ∧ c ≤ '9'

instance (n : Nat) (text : List Char) : Decidable (IsDigits n text) :=
  decidable_of_iff (text.length = n ∧ text.all Char.isDigit = true) (by
    simp only [IsDigits, List.all_eq_true, Text.isDigit_iff])

def IsWord (text : List Char) : Prop :=
  text ≠ [] ∧ ∀ c ∈ text, 'a' ≤ c ∧ c ≤ 'z' ∨ 'A' ≤ c ∧ c ≤ 'Z'

-- Three numbers with a separator between them.
def IsTriple (sep : Char) (a b c : Nat) (text : List Char) : Prop :=
  ∃ x y z, text = x ++ sep :: (y ++ sep :: z) ∧ IsDigits a x ∧ IsDigits b y ∧ IsDigits c z

def IsDate : List Char → Prop :=
  IsTriple '-' 4 2 2

def IsTime : List Char → Prop :=
  IsTriple ':' 2 2 2

def IsDateTime (text : List Char) : Prop :=
  ∃ date time, text = date ++ ' ' :: time ∧ IsDate date ∧ IsTime time

-- The first three digits of the mobile numbers.
def IsCarrier (n : Nat) : Prop :=
  130 ≤ n ∧ n ≤ 139 ∨ 150 ≤ n ∧ n ≤ 153 ∨ 155 ≤ n ∧ n ≤ 159 ∨ n = 166 ∨ n = 173 ∨ n = 176 ∨
    n = 177 ∨ n = 178 ∨ 180 ≤ n ∧ n ≤ 189 ∨ n = 145 ∨ n = 147

instance (n : Nat) : Decidable (IsCarrier n) :=
  inferInstanceAs (Decidable (_ ∨ _))

-- Eleven digits behind a dialling code or none.
def IsMobile (text : List Char) : Prop :=
  ∃ code number, text = code ++ number ∧ String.ofList code ∈ ["", "0", "86", "17951"] ∧
    IsDigits 11 number ∧ IsCarrier (Text.natOfDigits (number.take 3))

theorem not_isDate_nil : ¬IsDate [] := by
  rintro ⟨x, _, _, h, -⟩
  simp at h

theorem not_isDateTime_nil : ¬IsDateTime [] := by
  rintro ⟨x, _, h, -⟩
  simp at h

end Form

namespace Format

open Regex Form

variable {text : List Char}

theorem denotes_literal {s : List Char} : (literal s).Denotes text ↔ text = s := by
  induction s generalizing text with
  | nil => rfl
  | cons c s ih =>
      constructor
      · rintro ⟨x, y, rfl, hx, hy⟩
        rw [denotes_char.mp hx, ih.mp hy]
        rfl
      · rintro rfl
        exact ⟨[c], s, rfl, denotes_char.mpr rfl, ih.mpr rfl⟩

theorem denotes_digits {n : Nat} : (digits n).Denotes text ↔ IsDigits n text := by
  have hmem (c : Char) : CharClass.asciiDigit.mem c = true ↔ '0' ≤ c ∧ c ≤ '9' :=
    Text.isDigit_iff
  rw [digits, times, digit, denotes_rep_chars, IsDigits]
  simp only [hmem, Option.mem_some_iff, forall_eq', ← and_assoc, ← Nat.le_antisymm_iff, eq_comm]

theorem number_isMatch_iff : number.isMatch text = true ↔ Text.isDigitRun text = true := by
  have hmem (c : Char) : CharClass.asciiDigit.mem c = c.isDigit := rfl
  rw [number, isMatch_whole_iff_denotes (by rfl) (by rfl), plus, digit, denotes_rep_chars,
    Text.isDigitRun_iff, ← List.length_pos_iff]
  simp [hmem, Nat.succ_le_iff]

theorem letters_isMatch_iff : letters.isMatch text = true ↔ IsWord text := by
  have hmem (c : Char) : CharClass.asciiLetter.mem c = true ↔
      'a' ≤ c ∧ c ≤ 'z' ∨ 'A' ≤ c ∧ c ≤ 'Z' := by
    simp [CharClass.asciiLetter, CharClass.mem]
  rw [letters, isMatch_whole_iff_denotes (by rfl) (by rfl), plus, denotes_rep_chars, IsWord,
    ← List.length_pos_iff]
  simp [hmem, Nat.succ_le_iff]

-- Three runs of digits around two separators.
theorem denotes_triple {sep : Char} {a b c : Nat} :
    (all [digits a, char sep, digits b, char sep, digits c]).Denotes text ↔
      IsTriple sep a b c text := by
  constructor
  · rintro ⟨x, _, rfl, hx, _, _, rfl, hsep, y, _, rfl, hy, _, z, rfl, hsep', hz⟩
    obtain rfl := denotes_char.mp hsep
    obtain rfl := denotes_char.mp hsep'
    exact ⟨x, y, z, rfl, denotes_digits.mp hx, denotes_digits.mp hy, denotes_digits.mp hz⟩
  · rintro ⟨x, y, z, rfl, hx, hy, hz⟩
    exact ⟨x, _, rfl, denotes_digits.mpr hx, [sep], _, rfl, denotes_char.mpr rfl, y, _, rfl,
      denotes_digits.mpr hy, [sep], z, rfl, denotes_char.mpr rfl, denotes_digits.mpr hz⟩

theorem date_isMatch_iff : date.isMatch text = true ↔ IsDate text := by
  rw [date, isMatch_whole_iff_denotes (by rfl) (by rfl), day, denotes_triple, IsDate]

theorem dateTime_isMatch_iff : dateTime.isMatch text = true ↔ IsDateTime text := by
  rw [dateTime, isMatch_whole_iff_denotes (by rfl) (by rfl)]
  constructor
  · rintro ⟨x, _, rfl, hx, _, y, rfl, hsep, hy⟩
    obtain rfl := denotes_char.mp hsep
    exact ⟨x, y, rfl, denotes_triple.mp hx, denotes_triple.mp hy⟩
  · rintro ⟨x, y, rfl, hx, hy⟩
    exact ⟨x, _, rfl, denotes_triple.mpr hx, [' '], y, rfl, denotes_char.mpr rfl,
      denotes_triple.mpr hy⟩

theorem denotes_literal_chars {s : List Char} {set : CharClass} :
    (seq (literal s) (chars set)).Denotes text ↔ ∃ c, set.mem c = true ∧ text = s ++ [c] := by
  constructor
  · rintro ⟨x, _, rfl, hx, c, hc, rfl⟩
    exact ⟨c, hc, by rw [denotes_literal.mp hx]⟩
  · rintro ⟨c, hc, rfl⟩
    exact ⟨s, [c], rfl, denotes_literal.mpr rfl, c, hc, rfl⟩

-- The branches of the expression for the carriers, by the second digit.
def IsBranch (a b c : Char) : Prop :=
  a = '1' ∧ (b = '3' ∧ c.isDigit = true ∨ b = '5' ∧ c ∈ "012356789".toList ∨ b = '6' ∧ c = '6' ∨
    b = '7' ∧ c ∈ "3678".toList ∨ b = '8' ∧ c.isDigit = true ∨ b = '4' ∧ c ∈ "57".toList)

instance (a b c : Char) : Decidable (IsBranch a b c) :=
  inferInstanceAs (Decidable (_ ∧ _))

theorem denotes_branches :
    carrier.Denotes text ↔ ∃ a b c, text = [a, b, c] ∧ IsBranch a b c := by
  have halt (a b : Regex) : (alt a b).Denotes text ↔ a.Denotes text ∨ b.Denotes text := Iff.rfl
  have hdigit (c : Char) : CharClass.asciiDigit.mem c = c.isDigit := rfl
  simp only [carrier, any, halt, denotes_literal_chars, denotes_literal, digit, hdigit,
    CharClass.mem_ofChars]
  constructor
  · rintro (⟨c, hc, rfl⟩ | ⟨c, hc, rfl⟩ | rfl | ⟨c, hc, rfl⟩ | ⟨c, hc, rfl⟩ | ⟨c, hc, rfl⟩)
    · exact ⟨'1', '3', c, rfl, rfl, .inl ⟨rfl, hc⟩⟩
    · exact ⟨'1', '5', c, rfl, rfl, .inr (.inl ⟨rfl, hc⟩)⟩
    · exact ⟨'1', '6', '6', rfl, rfl, .inr (.inr (.inl ⟨rfl, rfl⟩))⟩
    · exact ⟨'1', '7', c, rfl, rfl, .inr (.inr (.inr (.inl ⟨rfl, hc⟩)))⟩
    · exact ⟨'1', '8', c, rfl, rfl, .inr (.inr (.inr (.inr (.inl ⟨rfl, hc⟩))))⟩
    · exact ⟨'1', '4', c, rfl, rfl, .inr (.inr (.inr (.inr (.inr ⟨rfl, hc⟩))))⟩
  · rintro ⟨a, b, c, rfl, rfl, h⟩
    rcases h with ⟨rfl, hc⟩ | ⟨rfl, hc⟩ | ⟨rfl, rfl⟩ | ⟨rfl, hc⟩ | ⟨rfl, hc⟩ | ⟨rfl, hc⟩
    · exact .inl ⟨c, hc, rfl⟩
    · exact .inr (.inl ⟨c, hc, rfl⟩)
    · exact .inr (.inr (.inl rfl))
    · exact .inr (.inr (.inr (.inl ⟨c, hc, rfl⟩)))
    · exact .inr (.inr (.inr (.inr (.inl ⟨c, hc, rfl⟩))))
    · exact .inr (.inr (.inr (.inr (.inr ⟨c, hc, rfl⟩))))

theorem IsBranch.isDigit {a b c : Char} (h : IsBranch a b c) :
    ∀ d ∈ [a, b, c], d.isDigit = true := by
  have hlist {ds : String} (hds : ds.toList.all Char.isDigit = true) (hc : c ∈ ds.toList) :
      c.isDigit = true :=
    List.all_eq_true.mp hds c hc
  obtain ⟨rfl, ⟨rfl, hc⟩ | ⟨rfl, hc⟩ | ⟨rfl, rfl⟩ | ⟨rfl, hc⟩ | ⟨rfl, hc⟩ | ⟨rfl, hc⟩⟩ := h
  · simp [hc]
  · simp [hlist (by decide) hc]
  · simp
  · simp [hlist (by decide) hc]
  · simp [hc]
  · simp [hlist (by decide) hc]

-- Of three digits these are the ones whose number is a carrier's.
theorem isBranch_digitChar : ∀ x < 10, ∀ y < 10, ∀ z < 10,
    IsBranch (Nat.digitChar x) (Nat.digitChar y) (Nat.digitChar z) ↔
      IsCarrier (10 * (10 * x + y) + z) := by
  decide +kernel

theorem denotes_carrier :
    carrier.Denotes text ↔ IsDigits 3 text ∧ IsCarrier (Text.natOfDigits text) := by
  have hiff {a b c : Char} (h : ∀ d ∈ [a, b, c], d.isDigit = true) :
      IsBranch a b c ↔ IsCarrier (Text.natOfDigits [a, b, c]) := by
    simp only [List.forall_mem_cons] at h
    obtain ⟨x, hx, rfl⟩ := Text.exists_digitChar h.1
    obtain ⟨y, hy, rfl⟩ := Text.exists_digitChar h.2.1
    obtain ⟨z, hz, rfl⟩ := Text.exists_digitChar h.2.2.1
    rw [isBranch_digitChar x hx y hy z hz]
    simp [Text.natOfDigits, Text.digitValue_digitChar, hx, hy, hz]
  simp only [IsDigits, ← Text.isDigit_iff]
  rw [denotes_branches]
  constructor
  · rintro ⟨a, b, c, rfl, h⟩
    exact ⟨⟨rfl, h.isDigit⟩, (hiff h.isDigit).mp h⟩
  · rintro ⟨⟨hlength, hdigits⟩, hcarrier⟩
    obtain ⟨a, b, c, rfl⟩ := List.length_eq_three.mp hlength
    exact ⟨a, b, c, rfl, (hiff hdigits).mpr hcarrier⟩

theorem denotes_diallingCode :
    (optional diallingCode).Denotes text ↔ String.ofList text ∈ ["", "0", "86", "17951"] := by
  have halt (a b : Regex) : (alt a b).Denotes text ↔ a.Denotes text ∨ b.Denotes text := Iff.rfl
  have hlist (s : String) : String.ofList text = s ↔ text = s.toList := by
    rw [← String.toList_inj, String.toList_ofList]
  rw [denotes_optional]
  simp only [diallingCode, any, halt, denotes_literal, List.mem_cons, List.not_mem_nil, or_false,
    hlist]
  exact Iff.rfl

theorem phone_isMatch_iff : phone.isMatch text = true ↔ IsMobile text := by
  rw [phone, isMatch_whole_iff_denotes (by rfl) (by rfl)]
  constructor
  · rintro ⟨code, _, rfl, hcode, first, rest, rfl, hfirst, hrest⟩
    obtain ⟨⟨hlength, hdigits⟩, hcarrier⟩ := denotes_carrier.mp hfirst
    obtain ⟨hrestLength, hrestDigits⟩ := denotes_digits.mp hrest
    refine ⟨code, first ++ rest, rfl, denotes_diallingCode.mp hcode, ⟨?_, ?_⟩, ?_⟩
    · rw [List.length_append, hlength, hrestLength]
    · exact List.forall_mem_append.mpr ⟨hdigits, hrestDigits⟩
    · rwa [List.take_left' hlength]
  · rintro ⟨code, number, rfl, hcode, ⟨hlength, hdigits⟩, hcarrier⟩
    refine ⟨code, number, rfl, denotes_diallingCode.mpr hcode, number.take 3, number.drop 3,
      (List.take_append_drop 3 number).symm, denotes_carrier.mpr ⟨⟨?_, ?_⟩, hcarrier⟩,
      denotes_digits.mpr ⟨?_, ?_⟩⟩
    · rw [List.length_take, hlength]
      rfl
    · exact fun c hc => hdigits c (List.mem_of_mem_take hc)
    · rw [List.length_drop, hlength]
    · exact fun c hc => hdigits c (List.mem_of_mem_drop hc)

end Format

-- The checks for texts of a form, and the texts of that form.
inductive Builtin.HasForm : Builtin → (List Char → Prop) → Prop
  | alpha : HasForm .alpha Form.IsWord
  | date : HasForm .date Form.IsDate
  | dateTime : HasForm .dateTime Form.IsDateTime
  | phone : HasForm .phone Form.IsMobile

variable {args : Args} {parts : List (String × Rule)} {check : Check} {builtin : Builtin}
  {form : List Char → Prop}

-- A check that matches its text with an expression passes the texts that do.
theorem Run.check_isMatch {leaf : Leaf} {failure : Failure} {s : String} (regex : Regex)
    (hleaf : ∀ context,
      leaf.verdict (.str s) context = .when (regex.isMatch s.toList) failure)
    (run : Run) (name path : String) (record : Json) :
    run.check name (.str s) record path (.leaf leaf) = none ↔ regex.isMatch s.toList = true := by
  rw [check_leaf_eq_none_iff, hleaf, Verdict.when_eq_pass_iff]

namespace Builtin

-- A check for texts of a fixed form that has no empty text passes one only where that is allowed.
theorem check_fixedForm {name : String} {format : Pattern} {message : Option String}
    (hcheck : (fixedText name format message args).map .leaf = .ok check)
    (hformat : ∀ s : String, format.isMatch s = true ↔ form s.toList) (hempty : ¬form [])
    (run : Run) (key path : String) (record : Json) (s : String) :
    run.check key (.str s) record path check = none ↔
      form s.toList ∨ s = "" ∧ args.AllowsEmpty := by
  obtain ⟨leaf, hleaf, rfl⟩ := map_eq_ok_iff.mp hcheck
  obtain ⟨allowEmpty, hallowed, rfl⟩ := exists_of_fixedText hleaf
  have hpass : Leaf.verdict (.text name { allowEmpty, format := some format, message }) (.str s)
      ⟨record, run.root, path⟩ = .pass ↔
        s = "" ∧ args.AllowsEmpty ∨ s ≠ "" ∧ form s.toList := by
    rw [Leaf.verdict, TextRules.verdict_format, ← hformat s, ← hallowed]
    simp
  rw [Run.check_leaf_eq_none_iff, hpass]
  by_cases hs : s = ""
  · subst hs
    simp [hempty]
  · simp [hs]

end Builtin

namespace Registry

variable {registry : Registry}

-- A check for texts of a form passes these, and the empty text where a date may be left empty, and
-- no other text.
theorem builds_form [Engine] (hentry : registry.resolve args.rule = some (.builtin builtin))
    (hform : builtin.HasForm form) (hcheck : registry.Builds args parts check)
    (run : Run) (name path : String) (record : Json) (s : String) :
    run.check name (.str s) record path check = none ↔
      form s.toList ∨ s = "" ∧ builtin.fixedForm?.isSome = true ∧ args.AllowsEmpty := by
  obtain ⟨entry, hresolved, hbuild⟩ := hcheck
  obtain rfl := Option.some.inj (hentry.symm.trans hresolved)
  rw [Entry.build] at hbuild
  cases hform with
  | alpha =>
      obtain rfl := Except.ok.inj hbuild
      rw [Run.check_isMatch Format.letters fun _ => rfl, Format.letters_isMatch_iff]
      simp [Builtin.fixedForm?]
  | phone =>
      obtain rfl := Except.ok.inj hbuild
      rw [Run.check_isMatch Format.phone fun _ => rfl, Format.phone_isMatch_iff]
      simp [Builtin.fixedForm?]
  | date =>
      rw [Builtin.check_fixedForm hbuild (fun _ => Format.date_isMatch_iff) Form.not_isDate_nil]
      simp [Builtin.fixedForm?]
  | dateTime =>
      rw [Builtin.check_fixedForm hbuild (fun _ => Format.dateTime_isMatch_iff)
        Form.not_isDateTime_nil]
      simp [Builtin.fixedForm?]

end Registry

-- A mobile number, and a day that may be left out.
namespace Appointment

def phoneArgs : Args :=
  { rule := "phone", field := "phone", options := [] }

def dayArgs : Args :=
  { rule := "date", field := "day", options := [("empty", .bool true)] }

def dayCheck : Check :=
  .leaf (.text "date" { allowEmpty := true, format := some Format.datePattern })

def run : Run :=
  ({} : Validator).run .null []

-- A line end is no part of a number.
theorem not_isMobile : ¬Form.IsMobile "17712345678\n".toList := by
  rintro ⟨code, number, htext, hcode, ⟨-, hdigits⟩, -⟩
  have hmem : '\n' ∈ code ++ number := htext ▸ by decide
  rcases List.mem_append.mp hmem with hmem | hmem
  · have hcode' : ∀ s ∈ ["", "0", "86", "17951"], '\n' ∉ s.toList := by decide
    exact hcode' _ hcode (by rwa [String.toList_ofList])
  · exact absurd (hdigits _ hmem).1 (by decide)

end Appointment

open scoped Regex

theorem Registry.builds_form_appointment :
    (Registry.resolve {} Appointment.phoneArgs.rule = some (.builtin .phone) ∧
      Builtin.HasForm .phone Form.IsMobile ∧
      Registry.Builds {} Appointment.phoneArgs [] (.leaf .phone)) ∧
    (Appointment.run.check "phone" (.str "1795117712345678") .null "phone" (.leaf .phone) = none ∧
      Appointment.run.check "phone" (.str "17712345678\n") .null "phone" (.leaf .phone) ≠ none) ∧
    (Registry.resolve {} Appointment.dayArgs.rule = some (.builtin .date) ∧
      Builtin.HasForm .date Form.IsDate ∧
      Registry.Builds {} Appointment.dayArgs [] Appointment.dayCheck) ∧
    Appointment.run.check "date" (.str "2024-02-30") .null "day" Appointment.dayCheck = none ∧
    Appointment.run.check "date" (.str "") .null "day" Appointment.dayCheck = none := by
  have hphone : Registry.resolve {} Appointment.phoneArgs.rule = some (.builtin .phone) := rfl
  have hphoneCheck : Registry.Builds {} Appointment.phoneArgs [] (.leaf .phone) := ⟨_, hphone, rfl⟩
  have hday : Registry.resolve {} Appointment.dayArgs.rule = some (.builtin .date) := rfl
  have hdayCheck : Registry.Builds {} Appointment.dayArgs [] Appointment.dayCheck :=
    ⟨_, hday, rfl⟩
  have hnumber (s : String) :=
    builds_form hphone .phone hphoneCheck Appointment.run "phone" "phone" .null s
  have hdate (s : String) :=
    builds_form hday .date hdayCheck Appointment.run "date" "day" .null s
  refine ⟨⟨hphone, .phone, hphoneCheck⟩, ⟨(hnumber _).mpr (.inl ?_), fun h => ?_⟩,
    ⟨hday, .date, hdayCheck⟩, (hdate _).mpr (.inl ?_), (hdate _).mpr (.inr ?_)⟩
  · exact ⟨"17951".toList, "17712345678".toList, rfl, by decide, by decide, by decide⟩
  · rcases (hnumber _).mp h with h | ⟨h, -⟩
    · exact Appointment.not_isMobile h
    · exact absurd h (by decide)
  · exact ⟨"2024".toList, "02".toList, "30".toList, rfl, by decide, by decide, by decide⟩
  · exact ⟨rfl, rfl, .inr (.inl rfl)⟩

end Rulebook
