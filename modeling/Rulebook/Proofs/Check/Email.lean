import Mathlib.Data.Bool.AllAny
import Rulebook.Proofs.Check.Text
import Rulebook.Proofs.Regex.Language
import Rulebook.Proofs.Validator.Report
import Rulebook.Regex.Engine

namespace Rulebook

open Outcome

namespace Address

-- The characters of a local part: ASCII letters and digits, and some signs.
def IsAtomChar (c : Char) : Prop :=
  c.isAlphanum = true ∨ c ∈ "!#$%&'*+/=?^_`\x7b|\x7d~-".toList

def IsMailAtom (text : List Char) : Prop :=
  text ≠ [] ∧ ∀ c ∈ text, IsAtomChar c

-- A label of a domain neither begins nor ends with a dash.
def IsLabel (text : List Char) : Prop :=
  text ≠ [] ∧ (∀ c ∈ text, c.isAlphanum = true ∨ c = '-') ∧
    text.head? ≠ some '-' ∧ text.getLast? ≠ some '-'

def IsLocalPart (text : List Char) : Prop :=
  ∃ atoms, atoms ≠ [] ∧ text = Text.joinWith ['.'] atoms ∧ ∀ atom ∈ atoms, IsMailAtom atom

def IsMailDomain (text : List Char) : Prop :=
  ∃ labels, 2 ≤ labels.length ∧ text = Text.joinWith ['.'] labels ∧ ∀ label ∈ labels, IsLabel label

def IsAddress (text : List Char) : Prop :=
  ∃ localPart domain, text = localPart ++ '@' :: domain ∧
    IsLocalPart localPart ∧ IsMailDomain domain

end Address

namespace Format

open Regex Address

variable {text : List Char}

theorem denotes_mailAtom : mailAtom.Denotes text ↔ IsMailAtom text := by
  have hmem (c : Char) : atomChar.mem c = true ↔ IsAtomChar c := by
    rw [atomChar, CharClass.mem, Bool.or_eq_true, CharClass.asciiAlnum_mem, CharClass.mem_ofChars]
    rfl
  rw [mailAtom, plus, denotes_rep_chars, IsMailAtom, ← List.length_pos_iff]
  simp [hmem, Nat.succ_le_iff]

theorem denotes_label : label.Denotes text ↔ IsLabel text := by
  have hinner (c : Char) : (CharClass.union .asciiAlnum (.single '-')).mem c = true ↔
      c.isAlphanum = true ∨ c = '-' := by
    rw [CharClass.mem, Bool.or_eq_true, CharClass.asciiAlnum_mem, CharClass.mem_single]
  have hnotDash {c : Char} (hc : c.isAlphanum = true) : c ≠ '-' := by
    rintro rfl
    cases hc
  rw [label]
  constructor
  · rintro ⟨_, rest, rfl, ⟨first, hfirst, rfl⟩, hrest⟩
    rw [CharClass.asciiAlnum_mem] at hfirst
    rcases denotes_optional.mp hrest with rfl | ⟨inner, _, rfl, hchars, last, hlast, rfl⟩
    · simp [IsLabel, hfirst, hnotDash]
    · rw [CharClass.asciiAlnum_mem] at hlast
      have hbetween : ∀ c ∈ inner, c.isAlphanum = true ∨ c = '-' :=
        fun c hc => (hinner c).mp ((denotes_rep_chars.mp hchars).2.2 c hc)
      have hend : ∀ c ∈ inner ++ [last], c.isAlphanum = true ∨ c = '-' :=
        List.forall_mem_append.mpr ⟨hbetween, List.forall_mem_singleton.mpr (.inl hlast)⟩
      refine ⟨List.cons_ne_nil _ _, List.forall_mem_cons.mpr ⟨.inl hfirst, hend⟩, ?_, ?_⟩
      · simp [hnotDash hfirst]
      · rw [← List.append_assoc, List.getLast?_concat]
        simp [hnotDash hlast]
  · rintro ⟨hne, hchars, hhead, hlast⟩
    obtain ⟨first, rest, rfl⟩ := List.exists_cons_of_ne_nil hne
    obtain ⟨hfirst, hrest⟩ := List.forall_mem_cons.mp hchars
    have hbegin : first.isAlphanum = true := hfirst.resolve_right (by simpa using hhead)
    refine ⟨[first], rest, rfl, ⟨first, ?_, rfl⟩, denotes_optional.mpr ?_⟩
    · rwa [CharClass.asciiAlnum_mem]
    · obtain rfl | ⟨inner, last, rfl⟩ := List.eq_nil_or_concat' rest
      · exact .inl rfl
      · obtain ⟨hbetween, hend⟩ := List.forall_mem_append.mp hrest
        rw [← List.cons_append, List.getLast?_concat] at hlast
        have hend : last.isAlphanum = true :=
          (List.forall_mem_singleton.mp hend).resolve_right (by simpa using hlast)
        have hchars : (star (chars (.union .asciiAlnum (.single '-')))).Denotes inner :=
          denotes_rep_chars.mpr
            ⟨Nat.zero_le _, by simp, fun c hc => (hinner c).mpr (hbetween c hc)⟩
        refine .inr ⟨inner, [last], rfl, hchars, last, ?_, rfl⟩
        rwa [CharClass.asciiAlnum_mem]

theorem email_isMatch_iff : email.isMatch text = true ↔ IsAddress text := by
  have hlocal {x : List Char} :
      (seq mailAtom (star (seq (char '.') mailAtom))).Denotes x ↔ IsLocalPart x := by
    simp only [denotes_separated, denotes_mailAtom, IsLocalPart]
  have hdomain {y : List Char} :
      (seq (plus (seq label (char '.'))) label).Denotes y ↔ IsMailDomain y := by
    simp only [denotes_terminated, denotes_label, IsMailDomain]
  rw [email, isMatch_whole_iff_denotes (by rfl) (by rfl)]
  simp only [all]
  rw [denotes_seq_assoc]
  constructor
  · rintro ⟨x, _, rfl, hx, at', y, rfl, hat, hy⟩
    obtain rfl := denotes_char.mp hat
    exact ⟨x, y, rfl, hlocal.mp hx, hdomain.mp hy⟩
  · rintro ⟨x, y, rfl, hx, hy⟩
    exact ⟨x, '@' :: y, rfl, hlocal.mpr hx, ['@'], y, rfl, denotes_char.mpr rfl, hdomain.mpr hy⟩

end Format

namespace Address

variable {text : List Char}

theorem toNat_lt_of_isAlphanum {c : Char} (h : c.isAlphanum = true) : c.toNat < 128 := by
  have hbelow {last : Char} (hlast : c.val ≤ last.val) (hascii : last.toNat < 128) :
      c.toNat < 128 :=
    Nat.lt_of_le_of_lt hlast hascii
  rcases Bool.or_eq_true_iff.mp h with hletter | hdigit
  · rcases Bool.or_eq_true_iff.mp hletter with hupper | hlower
    · exact hbelow (of_decide_eq_true hupper).2 (by decide)
    · exact hbelow (of_decide_eq_true (Bool.and_eq_true_iff.mp hlower).2) (by decide)
  · exact hbelow (of_decide_eq_true (Bool.and_eq_true_iff.mp hdigit).2) (by decide)

-- What a part of an address is made of.
def IsPartChar (c : Char) : Prop :=
  c.toNat < 128 ∧ c ≠ '@'

theorem isPartChar_of_isAlphanum {c : Char} (h : c.isAlphanum = true) : IsPartChar c := by
  refine ⟨toNat_lt_of_isAlphanum h, ?_⟩
  rintro rfl
  cases h

theorem IsAtomChar.isPartChar {c : Char} (h : IsAtomChar c) : IsPartChar c := by
  have hsigns : ∀ c ∈ "!#$%&'*+/=?^_`\x7b|\x7d~-".toList, c.toNat < 128 ∧ c ≠ '@' :=
    List.all_iff_forall_prop.mp (by decide)
  exact h.elim isPartChar_of_isAlphanum (hsigns c)

theorem isPartChar_of_mem_joinWith {items : List (List Char)}
    (h : ∀ item ∈ items, ∀ c ∈ item, IsPartChar c) {c : Char}
    (hc : c ∈ Text.joinWith ['.'] items) : IsPartChar c := by
  rcases Text.mem_joinWith hc with rfl | ⟨item, hitem, hc⟩
  · exact ⟨by decide, by decide⟩
  · exact h item hitem c hc

theorem IsLocalPart.isPartChar (h : IsLocalPart text) : ∀ c ∈ text, IsPartChar c := by
  obtain ⟨atoms, -, rfl, hatoms⟩ := h
  intro c
  exact isPartChar_of_mem_joinWith fun atom hatom c hc => ((hatoms atom hatom).2 c hc).isPartChar

theorem IsMailDomain.isPartChar (h : IsMailDomain text) : ∀ c ∈ text, IsPartChar c := by
  obtain ⟨labels, -, rfl, hlabels⟩ := h
  intro c
  refine isPartChar_of_mem_joinWith fun label hlabel c hc => ?_
  rcases (hlabels label hlabel).2.1 c hc with hletter | rfl
  · exact isPartChar_of_isAlphanum hletter
  · exact ⟨by decide, by decide⟩

-- An address is an ASCII text with one at sign.
theorem IsAddress.ascii (h : IsAddress text) :
    (∀ c ∈ text, c.toNat < 128) ∧ text.count '@' = 1 := by
  obtain ⟨x, y, rfl, hx, hy⟩ := h
  have hnone {part : List Char} (hpart : ∀ c ∈ part, IsPartChar c) : part.count '@' = 0 :=
    List.count_eq_zero.mpr fun hmem => (hpart '@' hmem).2 rfl
  constructor
  · refine List.forall_mem_append.mpr ⟨fun c hc => (hx.isPartChar c hc).1, ?_⟩
    exact List.forall_mem_cons.mpr ⟨by decide, fun c hc => (hy.isPartChar c hc).1⟩
  · rw [List.count_append, List.count_cons_self, hnone hx.isPartChar, hnone hy.isPartChar]

theorem IsAddress.ne_nil (h : IsAddress text) : text ≠ [] := by
  obtain ⟨x, y, rfl, -⟩ := h
  simp

end Address

namespace Registry

variable {registry : Registry} {args : Args} {parts : List (String × Rule)} {check : Check}

-- The check of mail addresses passes the addresses, and the empty text where that is allowed,
-- and nothing else. Addresses are ASCII texts with one at sign.
theorem builds_email [Engine] (hentry : registry.resolve args.rule = some (.builtin .email))
    (hcheck : registry.Builds args parts check) :
    (∀ (run : Run) (name : String) (value record : Json) (path : String),
      run.check name value record path check = none ↔
        ∃ s : String, value = .str s ∧
          (s = "" ∧ args.AllowsEmpty ∨ Address.IsAddress s.toList)) ∧
      ∀ {text : List Char}, Address.IsAddress text →
        text ≠ [] ∧ (∀ c ∈ text, c.toNat < 128) ∧ text.count '@' = 1 := by
  refine ⟨?_, fun h => ⟨h.ne_nil, h.ascii⟩⟩
  intro run name value record path
  obtain ⟨entry, hresolved, hbuild⟩ := hcheck
  obtain rfl := Option.some.inj (hentry.symm.trans hresolved)
  obtain ⟨leaf, hleaf, hbuild⟩ := bind_eq_ok_iff.mp hbuild
  obtain rfl := Except.ok.inj hbuild
  obtain ⟨allowEmpty, hallowed, rfl⟩ := Builtin.exists_of_fixedText hleaf
  have hmatch (s : String) : Format.emailPattern.isMatch s = true ↔ Address.IsAddress s.toList :=
    Format.email_isMatch_iff
  rw [Run.check_leaf_eq_none_iff, Leaf.verdict, TextRules.verdict_format]
  refine exists_congr fun s => and_congr_right fun _ => ?_
  rw [hallowed, hmatch]
  refine or_congr_right (and_iff_right_of_imp fun haddress hs => haddress.ne_nil ?_)
  rw [hs]
  rfl

end Registry

-- A contact that may be left empty.
namespace Contact

def args : Args :=
  { rule := "email", field := "contact", options := [("empty", .str "true")] }

def check : Check :=
  .leaf (.text "email"
    { allowEmpty := true
      format := some Format.emailPattern
      message := some "should be an email" })

theorem builds [Engine] : Registry.Builds {} args [] check :=
  ⟨.builtin .email, rfl, rfl⟩

def run : Run :=
  ({} : Validator).run .null []

end Contact

open scoped Regex

theorem Registry.builds_email_contact :
    (Registry.resolve {} Contact.args.rule = some (.builtin .email) ∧
      Registry.Builds {} Contact.args [] Contact.check) ∧
      Contact.run.check "email" (.str "ada.l@mail-1.example") .null "contact" Contact.check = none ∧
      Contact.run.check "email" (.str "ada@mail-.example") .null "contact" Contact.check ≠ none ∧
      Contact.run.check "email" (.str "") .null "contact" Contact.check = none ∧
      Contact.run.check "email" .null .null "contact" Contact.check ≠ none := by
  have hentry : Registry.resolve {} Contact.args.rule = some (.builtin .email) := rfl
  have hpasses (value : Json) := (builds_email hentry Contact.builds).1 Contact.run "email" value
    .null "contact"
  have haddress : Address.IsAddress "ada.l@mail-1.example".toList :=
    Format.email_isMatch_iff.mp (by decide +kernel)
  have hdash : ¬Address.IsAddress "ada@mail-.example".toList := by
    rw [← Format.email_isMatch_iff]
    decide +kernel
  refine ⟨⟨hentry, Contact.builds⟩, ?_, fun hnone => ?_, ?_, fun hnone => ?_⟩
  · exact (hpasses _).mpr ⟨_, rfl, .inr haddress⟩
  · obtain ⟨s, hs, haccepted⟩ := (hpasses _).mp hnone
    obtain rfl := Json.str.inj hs
    rcases haccepted with ⟨hempty, -⟩ | haccepted
    · exact absurd hempty (by decide)
    · exact hdash haccepted
  · exact (hpasses _).mpr ⟨_, rfl, .inl ⟨rfl, .inr (.inr rfl)⟩⟩
  · obtain ⟨s, hs, -⟩ := (hpasses _).mp hnone
    cases hs

end Rulebook
