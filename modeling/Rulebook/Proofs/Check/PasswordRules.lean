import Mathlib.Data.Bool.AllAny
import Rulebook.Proofs.Check.Demand
import Rulebook.Proofs.Check.Text
import Rulebook.Proofs.Regex.Verbatim
import Rulebook.Proofs.Validator.Report
import Rulebook.Regex.Engine

namespace Rulebook

open Outcome

namespace Failure

def strangeCharacter : Failure :=
  invalid "should only contain letters, digits and &*;+$,?#[]%" []

def notSame (name : String) : Failure :=
  invalid "should equal to %s" [name]

end Failure

-- The letters and digits of ASCII, and a few symbols.
def Password.IsPlain (c : Char) : Prop :=
  ('a' ≤ c ∧ c ≤ 'z') ∨ ('A' ≤ c ∧ c ≤ 'Z') ∨ ('0' ≤ c ∧ c ≤ '9') ∨ c ∈ "&*;+$,?#[]%".toList

theorem Password.isAllowed_iff {c : Char} : isAllowed c = true ↔ IsPlain c := by
  have hupper : c.isUpper = true ↔ 'A' ≤ c ∧ c ≤ 'Z' := decide_eq_true_iff
  have hlower : c.isLower = true ↔ 'a' ≤ c ∧ c ≤ 'z' :=
    Bool.and_eq_true_iff.trans (and_congr decide_eq_true_iff decide_eq_true_iff)
  have hdigit : c.isDigit = true ↔ '0' ≤ c ∧ c ≤ '9' :=
    Bool.and_eq_true_iff.trans (and_congr decide_eq_true_iff decide_eq_true_iff)
  have hletter : c.isAlpha = true ↔ c.isUpper = true ∨ c.isLower = true := Bool.or_eq_true_iff
  have halphanum : c.isAlphanum = true ↔ c.isAlpha = true ∨ c.isDigit = true :=
    Bool.or_eq_true_iff
  rw [isAllowed, Bool.or_eq_true_iff, halphanum, hletter, hupper, hlower, hdigit,
    List.contains_iff_mem, or_assoc, or_assoc, or_left_comm]
  exact Iff.rfl

namespace Charset

-- The texts that a password may be.
def Accepts : Charset → String → Prop
  | standard min max, s => min ≤ s.length ∧ s.length ≤ max ∧ ∀ c ∈ s.toList, Password.IsPlain c
  | custom p, s => s ≠ "" ∧ p.isMatch s = true

def demands (value : Json) : Charset → List Demand
  | standard min max => [
      ⟨value.TextHas (·.length ≤ max), .tooLong max⟩,
      ⟨value.TextHas (min ≤ ·.length), .tooShort min⟩,
      ⟨value.TextHas fun s => ∀ c ∈ s.toList, Password.IsPlain c, .strangeCharacter⟩]
  | custom p => [⟨value.TextHas fun s => p.isMatch s = true, .noMatch p⟩]

theorem firstBroken (charset : Charset) (s : String) :
    FirstBroken (charset.demands (.str s)) (Password.brokenCharset s charset) := by
  cases charset with
  | custom p =>
      rw [demands, Password.brokenCharset]
      split
      · next hmatch => exact .kept (Json.textHas_str.mpr hmatch) .none
      · next hmatch => exact .broken (hmatch ∘ Json.textHas_str.mp)
  | standard min max =>
      rw [demands, Password.brokenCharset]
      split
      · next hlong => exact .broken fun h => Nat.not_le_of_lt hlong (Json.textHas_str.mp h)
      · next hlong =>
          refine .kept (Json.textHas_str.mpr (Nat.le_of_not_lt hlong)) ?_
          split
          · next hshort => exact .broken fun h => Nat.not_le_of_lt hshort (Json.textHas_str.mp h)
          · next hshort =>
              have hplain : (s.toList.all Password.isAllowed = true) ↔
                  ∀ c ∈ s.toList, Password.IsPlain c := by
                simp only [List.all_eq_true, Password.isAllowed_iff]
              refine .kept (Json.textHas_str.mpr (Nat.le_of_not_lt hshort)) ?_
              split
              · next hall => exact .kept (Json.textHas_str.mpr (hplain.mp hall)) .none
              · next hall => exact .broken fun h => hall (hplain.mpr (Json.textHas_str.mp h))

end Charset

namespace Password

-- What is asked of a password, in order.
def demands (p : Password) (value record : Json) : List Demand :=
  ⟨value.TextHas fun _ => True, .notText⟩ :: ⟨value.TextHas (· ≠ ""), .emptyText⟩ ::
    (p.charset.demands value ++
      (p.compare.map fun name => ⟨record.get? name = some value, .notSame name⟩).toList)

theorem firstBroken_compare (p : Password) (s : String) (record : Json) :
    FirstBroken (p.compare.map fun name =>
        ⟨record.get? name = some (.str s), .notSame name⟩).toList
      (p.brokenCompare (.str s) record) := by
  rw [brokenCompare]
  cases p.compare with
  | none => exact .none
  | some name =>
      have hsame : (record.get? name).any (·.same (.str s)) = true ↔
          record.get? name = some (.str s) := by
        rw [Option.any_eq_true]
        constructor
        · rintro ⟨value, hvalue, hsame⟩
          cases value <;> simp_all [Json.same]
        · intro h
          exact ⟨_, h, by simp [Json.same]⟩
      simp only [Option.map_some, Option.toList_some]
      split
      · next h => exact .kept (hsame.mp h) .none
      · next h => exact .broken (h ∘ hsame.mpr)

-- A password is judged by the first demand that it does not meet.
theorem exists_firstBroken (p : Password) (value : Json) (context : Context) :
    ∃ failure, FirstBroken (p.demands value context.record) failure ∧
      p.verdict value context = .ofOption failure := by
  cases value with
  | str s =>
      have htext : (Json.str s).TextHas fun _ => True := Json.textHas_str.mpr trivial
      rw [verdict, textOf_str]
      by_cases hs : s = ""
      · subst hs
        exact ⟨_, .kept htext (.broken fun h => Json.textHas_str.mp h rfl), rfl⟩
      · refine ⟨_, .kept htext (.kept (Json.textHas_str.mpr hs) ((p.charset.firstBroken s).append
          (p.firstBroken_compare s context.record))), ?_⟩
        rw [if_neg hs]
        rfl
  | _ => exact ⟨some .notText, .broken (by simp [Json.TextHas]), rfl⟩

end Password

namespace Args

variable {args : Args}

-- The count that an option is read as, or the one that stands for a missing option.
def CountIs (args : Args) (name : String) (default n : Nat) : Prop :=
  match args.get? name with
  | none => n = default
  | some value => value.count? = some n

theorem countIs_iff {name : String} {default n : Nat} :
    args.CountIs name default n ↔
      ∃ count, args.count name = .ok count ∧ count.getD default = n := by
  rw [CountIs, count]
  cases args.get? name with
  | none => simp [eq_comm]
  | some value => cases hcount : value.count? <;> simp [hcount, refuse]

theorem CountIs.unique {name : String} {default n m : Nat} (hn : args.CountIs name default n)
    (hm : args.CountIs name default m) : n = m := by
  obtain ⟨count, hcount, rfl⟩ := countIs_iff.mp hn
  obtain ⟨other, hother, rfl⟩ := countIs_iff.mp hm
  obtain rfl := Except.ok.inj (hcount.symm.trans hother)
  rfl

theorem count_ne_badBounds {name rule : String} {min max : Nat} :
    args.count name ≠ .error (.badBounds rule min max) := by
  rw [count]
  split
  · simp
  · split <;> simp [refuse]

theorem text_ne_badBounds {name rule : String} {min max : Nat} :
    args.text name ≠ .error (.badBounds rule min max) := by
  rw [text]
  split <;> simp [refuse]

theorem eq_bind_of_text_eq_ok {name : String} {s : Option String} (h : args.text name = .ok s) :
    s = (args.get? name).bind Json.string? := by
  rw [text] at h
  split at h <;> simp_all [Json.string?, refuse]

end Args

namespace Builtin

variable {args : Args}

theorem charset_of_bounds [Engine] (hformat : passwordFormat args = .ok none) :
    charset args = (do
      let min ← args.count "min"
      let max ← args.count "max"
      if min.getD 8 < 1 ∨ max.getD 18 < min.getD 8 then
        .error (.badBounds args.rule (min.getD 8) (max.getD 18))
      else .ok (.standard (min.getD 8) (max.getD 18))) := by
  rw [charset, hformat]
  rfl

theorem charset_eq_ok_iff [Engine] (hformat : passwordFormat args = .ok none) {c : Charset} :
    charset args = .ok c ↔ ∃ min max, args.CountIs "min" 8 min ∧ args.CountIs "max" 18 max ∧
      (1 ≤ min ∧ min ≤ max) ∧ c = .standard min max := by
  rw [charset_of_bounds hformat]
  simp only [bind_eq_ok_iff, Args.countIs_iff]
  constructor
  · rintro ⟨first, hfirst, second, hsecond, h⟩
    split_ifs at h with hbounds
    exact ⟨_, _, ⟨first, hfirst, rfl⟩, ⟨second, hsecond, rfl⟩, by omega, (Except.ok.inj h).symm⟩
  · rintro ⟨_, _, ⟨first, hfirst, rfl⟩, ⟨second, hsecond, rfl⟩, hbounds, rfl⟩
    exact ⟨first, hfirst, second, hsecond, if_neg (by omega)⟩

theorem charset_eq_badBounds_iff [Engine] (hformat : passwordFormat args = .ok none) {rule : String}
    {min max : Nat} :
    charset args = .error (.badBounds rule min max) ↔
      rule = args.rule ∧ args.CountIs "min" 8 min ∧ args.CountIs "max" 18 max ∧
        (min < 1 ∨ max < min) := by
  rw [charset_of_bounds hformat]
  simp only [bind_eq_error_iff, Args.countIs_iff, Args.count_ne_badBounds, false_or]
  constructor
  · rintro ⟨first, hfirst, second, hsecond, h⟩
    split_ifs at h with hbounds
    cases h
    exact ⟨rfl, ⟨first, hfirst, rfl⟩, ⟨second, hsecond, rfl⟩, hbounds⟩
  · rintro ⟨rfl, ⟨first, hfirst, rfl⟩, ⟨second, hsecond, rfl⟩, hbounds⟩
    exact ⟨first, hfirst, second, hsecond, if_pos hbounds⟩

theorem passwordRules_of_charset [Engine] {c : Charset} (hcharset : charset args = .ok c) :
    passwordRules args = (args.text "compare").map (Password.mk c) := by
  rw [passwordRules, hcharset]
  simp only [bind, Except.bind]
  cases args.text "compare" <;> rfl

-- The bounds are looked at before the name of the other field is.
theorem passwordRules_eq_badBounds_iff [Engine] {rule : String} {min max : Nat} :
    passwordRules args = .error (.badBounds rule min max) ↔
      charset args = .error (.badBounds rule min max) := by
  cases hcharset : charset args with
  | error e =>
      rw [passwordRules, hcharset]
      simp [bind, Except.bind]
  | ok c =>
      rw [passwordRules_of_charset hcharset]
      refine iff_of_false (fun h => ?_) (by simp)
      exact Args.text_ne_badBounds (map_eq_error_iff.mp h)

-- A given format is a text that can be read as a pattern.
theorem charset_eq_ok_of_format [Engine] {format : Json}
    (hformat : args.get? "format" = some format)
    {c : Charset} (h : charset args = .ok c) :
    ∃ source p, format = .str source ∧ Pattern.parse source = .ok p ∧ c = .custom p := by
  obtain ⟨given, hgiven, -⟩ := bind_eq_ok_iff.mp h
  obtain ⟨read, hread, -⟩ := bind_eq_ok_iff.mp hgiven
  obtain ⟨source, p, rfl, hparse⟩ := Args.reads_pattern_iff.mpr ⟨read, hread⟩ format hformat
  rw [charset_of_pattern (Args.pattern_eq_ok_some hformat hparse)] at h
  exact ⟨source, p, rfl, hparse, (Except.ok.inj h).symm⟩

end Builtin

namespace Descriptor

-- The name of the field that a value is compared with.
def compare (d : Descriptor) : Option String :=
  (Json.present? "compare" d.options).bind Json.string?

def ReadsCompare (d : Descriptor) : Prop :=
  ∀ other, Json.present? "compare" d.options = some other → ∃ name, other = .str name

-- A rule that asks for a password: its check reports the first demand that is not met, and it
-- passes the texts that the characters and the comparison allow.
structure AsksPassword (d : Descriptor) (charset : Charset) (rule : Rule) : Prop where
  reports : ∀ (run : Run) (name path : String) (value record : Json),
    ∃ failure, FirstBroken (Password.demands ⟨charset, d.compare⟩ value record) failure ∧
      run.check name value record path (.leaf (.password ⟨charset, d.compare⟩)) =
        failure.map fun failure => [run.resolve path name failure]
  passes_iff : ∀ (run : Run) (name path : String) (value record : Json),
    run.check name value record path (.leaf (.password ⟨charset, d.compare⟩)) = none ↔
      ∃ s, value = .str s ∧ charset.Accepts s ∧
        ∀ other ∈ d.compare, record.get? other = some (.str s)
  runs : ∀ (run : Run) (path : String) {value : Json} (record : Json),
    value.isNull = false → (d.required = true → value.isBlank = false) →
    run.rule value record path rule =
      (run.check d.kind value record path
        (.leaf (.password ⟨charset, d.compare⟩))).getD []

-- The rule reports what the check does.
theorem AsksPassword.rule_eq {d : Descriptor} {charset : Charset} {rule : Rule}
    (h : d.AsksPassword charset rule) {value record : Json} {failure : Option Failure}
    (hbroken : FirstBroken (Password.demands ⟨charset, d.compare⟩ value record) failure)
    (hnull : value.isNull = false) (hblank : d.required = true → value.isBlank = false)
    (run : Run) (path : String) :
    run.rule value record path rule = (failure.map (run.resolve path d.kind)).toList := by
  obtain ⟨other, hother, hcheck⟩ := h.reports run d.kind path value record
  obtain rfl := hother.unique hbroken
  rw [h.runs run path record hnull hblank, hcheck]
  cases other <;> rfl

end Descriptor

namespace Password

variable {p : Password} {value record : Json}

-- All demands together.
theorem demands_hold_iff (hmin : ∀ min max, p.charset = .standard min max → 1 ≤ min) :
    (∀ demand ∈ p.demands value record, demand.holds) ↔
      ∃ s, value = .str s ∧ p.charset.Accepts s ∧
        ∀ other ∈ p.compare, record.get? other = some (.str s) := by
  cases value with
  | str s =>
      obtain ⟨charset, compare⟩ := p
      cases charset with
      | custom format =>
          cases compare <;> simp [demands, Charset.demands, Charset.Accepts, and_assoc]
      | standard min max =>
          have hempty (hlength : min ≤ s.length) : s ≠ "" := by
            rintro rfl
            have := hmin min max rfl
            simp at hlength
            omega
          cases compare <;> simp [demands, Charset.demands, Charset.Accepts] <;> tauto
  | _ => simp [demands, Json.TextHas]

end Password

namespace Registry

variable {registry : Registry} {d : Descriptor} {field : String}

theorem compileRule_passwordRules [Engine]
    (hentry : registry.resolve d.kind = some (.builtin .password))
    (hrequired : d.required = true →
      registry.resolve RuleOf.requiredName = some (.builtin .required)) :
    registry.compileRule field (.descriptor d) =
      (Builtin.passwordRules (d.args field)).map fun p =>
        .ofChecks ((d.kind, .leaf (.password p)) ::
          if asksPresence d then [(RuleOf.requiredName, .leaf .required)] else []) := by
  rw [compileRule_flat hentry rfl hrequired, Entry.build, Builtin.build]
  cases Builtin.passwordRules (d.args field) <;> rfl

theorem asksPassword [Engine] (hentry : registry.resolve d.kind = some (.builtin .password))
    (hrequired : d.required = true →
      registry.resolve RuleOf.requiredName = some (.builtin .required)) {charset : Charset}
    (hcharset : Builtin.charset (d.args field) = .ok charset)
    (hmin : ∀ min max, charset = .standard min max → 1 ≤ min) {rule : Rule}
    (h : registry.compileRule field (.descriptor d) = .ok rule) : d.AsksPassword charset rule := by
  rw [compileRule_passwordRules hentry hrequired, Builtin.passwordRules_of_charset hcharset] at h
  obtain ⟨p, hp, rfl⟩ := map_eq_ok_iff.mp h
  obtain ⟨compare, hcompare, rfl⟩ := map_eq_ok_iff.mp hp
  obtain rfl : compare = d.compare := Args.eq_bind_of_text_eq_ok hcompare
  have hreports (run : Run) (name path : String) (value record : Json) :
      ∃ failure, FirstBroken (Password.demands ⟨charset, d.compare⟩ value record) failure ∧
        run.check name value record path (.leaf (.password ⟨charset, d.compare⟩)) =
          failure.map fun failure => [run.resolve path name failure] := by
    obtain ⟨failure, hbroken, hverdict⟩ :=
      Password.exists_firstBroken ⟨charset, d.compare⟩ value ⟨record, run.root, path⟩
    refine ⟨failure, hbroken, ?_⟩
    rw [Run.check, Leaf.verdict, hverdict]
    cases failure <;> rfl
  refine ⟨hreports, fun run name path value record => ?_,
    fun run path value record hnull hblank => ?_⟩
  · obtain ⟨failure, hbroken, hcheck⟩ := hreports run name path value record
    rw [hcheck, Option.map_eq_none_iff, hbroken.eq_none_iff, Password.demands_hold_iff hmin]
  · rw [Run.rule_leaf run d _ hnull hblank, Run.checks]
    cases run.check d.kind value record path (.leaf (.password ⟨charset, d.compare⟩)) <;> rfl

theorem exists_compileRule_password_iff [Engine]
    (hentry : registry.resolve d.kind = some (.builtin .password))
    (hrequired : d.required = true →
      registry.resolve RuleOf.requiredName = some (.builtin .required)) :
    (∃ rule, registry.compileRule field (.descriptor d) = .ok rule) ↔
      (∃ charset, Builtin.charset (d.args field) = .ok charset) ∧ d.ReadsCompare := by
  have htext : Accessor.text.Reads (d.args field) "compare" ↔
      ∃ name, (d.args field).text "compare" = .ok name := Args.reads_text_iff
  change _ ↔ _ ∧ Accessor.text.Reads (d.args field) "compare"
  rw [htext, compileRule_passwordRules hentry hrequired]
  simp only [map_eq_ok_iff]
  constructor
  · rintro ⟨_, p, hp, rfl⟩
    obtain ⟨charset, hcharset, hp⟩ := bind_eq_ok_iff.mp hp
    obtain ⟨name, hname, -⟩ := bind_eq_ok_iff.mp hp
    exact ⟨⟨charset, hcharset⟩, name, hname⟩
  · rintro ⟨⟨charset, hcharset⟩, name, hname⟩
    refine ⟨_, ⟨charset, name⟩, ?_, rfl⟩
    rw [Builtin.passwordRules_of_charset hcharset, hname]
    rfl

theorem passwordFormat_of_format_eq_none [Engine]
    (hformat : Json.present? "format" d.options = none) :
    Builtin.passwordFormat (d.args field) = .ok none := by
  have hget : (d.args field).get? "format" = none := hformat
  have hpattern : (d.args field).pattern "format" = .ok none := by
    rw [Args.pattern, Args.text, hget]
    rfl
  rw [Builtin.passwordFormat, hpattern]
  rfl

-- Passwords from end to end. Without a format a descriptor compiles if its bounds are counts
-- in order, from one on, and the name of the other field is a text. Bounds that are counts out
-- of order are refused with both numbers. With a format the bounds play no part.
theorem compileRule_password [Engine] (hentry : registry.resolve d.kind = some (.builtin .password))
    (hrequired : d.required = true →
      registry.resolve RuleOf.requiredName = some (.builtin .required)) (field : String) :
    (Json.present? "format" d.options = none →
      ((∃ rule, registry.compileRule field (.descriptor d) = .ok rule) ↔
        (∃ min max, (d.args field).CountIs "min" 8 min ∧ (d.args field).CountIs "max" 18 max ∧
          1 ≤ min ∧ min ≤ max) ∧ d.ReadsCompare) ∧
      (∀ name min max,
        registry.compileRule field (.descriptor d) = .error (.badBounds name min max) ↔
          name = d.kind ∧ (d.args field).CountIs "min" 8 min ∧
            (d.args field).CountIs "max" 18 max ∧ (min < 1 ∨ max < min)) ∧
      ∀ rule min max, registry.compileRule field (.descriptor d) = .ok rule →
        (d.args field).CountIs "min" 8 min → (d.args field).CountIs "max" 18 max →
        d.AsksPassword (.standard min max) rule) ∧
    ∀ format, Json.present? "format" d.options = some format →
      ((∃ rule, registry.compileRule field (.descriptor d) = .ok rule) ↔
        (∃ source p, format = .str source ∧ Pattern.parse source = .ok p) ∧ d.ReadsCompare) ∧
      ∀ rule, registry.compileRule field (.descriptor d) = .ok rule →
        ∃ source p, format = .str source ∧ Pattern.parse source = .ok p ∧
          d.AsksPassword (.custom p) rule := by
  have hcompiles : (∃ rule, registry.compileRule field (.descriptor d) = .ok rule) ↔
      (∃ charset, Builtin.charset (d.args field) = .ok charset) ∧ d.ReadsCompare :=
    exists_compileRule_password_iff hentry hrequired
  refine ⟨fun hformat => ⟨?_, fun name min max => ?_, fun rule min max hrule hmin hmax => ?_⟩,
    fun format hformat => ⟨?_, fun rule hrule => ?_⟩⟩
  · rw [hcompiles]
    simp only [Builtin.charset_eq_ok_iff (passwordFormat_of_format_eq_none hformat)]
    constructor
    · rintro ⟨⟨_, min, max, hmin, hmax, hbounds, -⟩, hcompare⟩
      exact ⟨⟨min, max, hmin, hmax, hbounds⟩, hcompare⟩
    · rintro ⟨⟨min, max, hmin, hmax, hbounds⟩, hcompare⟩
      exact ⟨⟨_, min, max, hmin, hmax, hbounds, rfl⟩, hcompare⟩
  · rw [compileRule_passwordRules hentry hrequired, map_eq_error_iff,
      Builtin.passwordRules_eq_badBounds_iff,
      Builtin.charset_eq_badBounds_iff (passwordFormat_of_format_eq_none hformat)]
    exact Iff.rfl
  · obtain ⟨⟨charset, hcharset⟩, -⟩ := hcompiles.mp ⟨rule, hrule⟩
    obtain ⟨first, second, hfirst, hsecond, ⟨hpositive, -⟩, rfl⟩ :=
      (Builtin.charset_eq_ok_iff (passwordFormat_of_format_eq_none hformat)).mp hcharset
    obtain rfl := hfirst.unique hmin
    obtain rfl := hsecond.unique hmax
    refine asksPassword hentry hrequired hcharset ?_ hrule
    rintro _ _ ⟨⟩
    exact hpositive
  · rw [hcompiles]
    have hget : (d.args field).get? "format" = some format := hformat
    refine and_congr_left fun _ => ⟨?_, ?_⟩
    · rintro ⟨charset, hcharset⟩
      obtain ⟨source, p, hsource, hparse, -⟩ := Builtin.charset_eq_ok_of_format hget hcharset
      exact ⟨source, p, hsource, hparse⟩
    · rintro ⟨source, p, rfl, hparse⟩
      exact ⟨_, Builtin.charset_of_pattern (Args.pattern_eq_ok_some hget hparse)⟩
  · obtain ⟨⟨charset, hcharset⟩, -⟩ := hcompiles.mp ⟨rule, hrule⟩
    have hget : (d.args field).get? "format" = some format := hformat
    obtain ⟨source, p, hsource, hparse, rfl⟩ := Builtin.charset_eq_ok_of_format hget hcharset
    exact ⟨source, p, hsource, hparse, asksPassword hentry hrequired hcharset (by simp) hrule⟩

end Registry

open scoped Regex

-- Passwords of a form: one with a least length that is to be repeated, one whose bounds are
-- the wrong way round, and one that is to have certain letters in it.
namespace Signup

def number (n : Nat) (fits : n < 18446744073709551616) : Json :=
  .num (.int n (by omega))

def repeated : Descriptor :=
  { kind := "password", required := true
    options := [("min", number 6 (by decide)), ("compare", .str "again")] }

def swapped : Descriptor :=
  { kind := "password", options := [("min", number 10 (by decide)), ("max", number 5 (by decide))] }

def lettered : Descriptor :=
  { kind := "password", options := [("format", .str "abc")] }

def record : Json :=
  .obj [("again", .str "abc124")]

def run : Run :=
  ({} : Validator).run record []

theorem exists_parse : ∃ p, Pattern.parse "abc" = .ok p ∧ p.isMatch "1 abc" = true := by
  have hplain : ∀ c ∈ "abc".toList, Regex.isSpecial c = false :=
    List.all_iff_forall_prop.mp (by decide)
  have hbare : Pattern.splitLiteral "abc".toList = none :=
    Pattern.splitLiteral_of_notMem (by decide)
  obtain ⟨accepts, haccepts, hparse⟩ | ⟨hnone, -⟩ := Pattern.parse_cases hbare
  · have hmatch := Engine.Verbatim.accepts_iff hplain haccepts "1 abc".toList
    exact ⟨_, hparse, hmatch.mpr ⟨['1', ' '], [], rfl⟩⟩
  · have hread := Engine.Verbatim.isSome_compile? hplain (by decide)
    rw [hnone] at hread
    cases hread

end Signup

namespace Registry

theorem compileRule_password_signup :
    (resolve {} "password" = some (.builtin .password) ∧
      resolve {} RuleOf.requiredName = some (.builtin .required)) ∧
    (∃ rule, compileRule {} "p" (.descriptor Signup.repeated) = .ok rule ∧
      Signup.run.rule (.str "abc~") Signup.record "p" rule =
        [⟨"invalid", "p", "length should bigger than 6"⟩] ∧
      Signup.run.rule (.str "abc123") Signup.record "p" rule =
        [⟨"invalid", "p", "should equal to again"⟩]) ∧
    compileRule {} "p" (.descriptor Signup.swapped) = .error (.badBounds "password" 10 5) ∧
    ∃ rule, compileRule {} "p" (.descriptor Signup.lettered) = .ok rule ∧
      Signup.run.rule (.str "1 abc") Signup.record "p" rule = [] := by
  have hentry : resolve {} "password" = some (.builtin .password) := rfl
  have hrequired : resolve {} RuleOf.requiredName = some (.builtin .required) := rfl
  have hnotRequired {P : Prop} : false = true → P := (absurd · Bool.false_ne_true)
  refine ⟨⟨hentry, hrequired⟩, ?_, ?_, ?_⟩
  · obtain ⟨hbounds, -⟩ :=
      compileRule_password (d := Signup.repeated) hentry (fun _ => hrequired) "p"
    obtain ⟨hcompiles, -, hasks⟩ := hbounds rfl
    have hmin : (Signup.repeated.args "p").CountIs "min" 8 6 := rfl
    have hmax : (Signup.repeated.args "p").CountIs "max" 18 18 := rfl
    obtain ⟨rule, hrule⟩ := hcompiles.mpr ⟨⟨6, 18, hmin, hmax, by decide, by decide⟩,
      fun other hother => ⟨"again", (Option.some.inj hother).symm⟩⟩
    have hpassword := hasks rule 6 18 hrule hmin hmax
    have hshort : FirstBroken (Password.demands ⟨.standard 6 18, some "again"⟩ (.str "abc~")
        Signup.record) (some (.tooShort 6)) :=
      .kept (Json.textHas_str.mpr trivial) (.kept (Json.textHas_str.mpr (by decide))
        (.kept (Json.textHas_str.mpr (by decide))
          (.broken fun h => absurd (Json.textHas_str.mp h) (by decide))))
    have hother : FirstBroken (Password.demands ⟨.standard 6 18, some "again"⟩ (.str "abc123")
        Signup.record) (some (.notSame "again")) := by
      have hallowed : ∀ c ∈ "abc123".toList, Password.isAllowed c = true :=
        List.all_eq_true.mp (by decide)
      have hplain : ∀ c ∈ "abc123".toList, Password.IsPlain c :=
        fun c hc => Password.isAllowed_iff.mp (hallowed c hc)
      exact .kept (Json.textHas_str.mpr trivial) (.kept (Json.textHas_str.mpr (by decide))
        (.kept (Json.textHas_str.mpr (by decide)) (.kept (Json.textHas_str.mpr (by decide))
          (.kept (Json.textHas_str.mpr hplain)
            (.broken (by simp [Signup.record, Json.get?, Members.get?]))))))
    refine ⟨rule, hrule, ?_, ?_⟩
    · rw [hpassword.rule_eq hshort rfl fun _ => rfl]
      rfl
    · rw [hpassword.rule_eq hother rfl fun _ => rfl]
      rfl
  · obtain ⟨hbounds, -⟩ := compileRule_password (d := Signup.swapped) hentry hnotRequired "p"
    exact ((hbounds rfl).2.1 "password" 10 5).mpr ⟨rfl, rfl, rfl, .inr (by decide)⟩
  · obtain ⟨p, hparse, hmatch⟩ := Signup.exists_parse
    obtain ⟨-, hformat⟩ := compileRule_password (d := Signup.lettered) hentry hnotRequired "p"
    obtain ⟨hcompiles, hasks⟩ := hformat (.str "abc") rfl
    have hcompare : Signup.lettered.ReadsCompare := fun _ h => absurd h.symm (Option.some_ne_none _)
    obtain ⟨rule, hrule⟩ := hcompiles.mpr ⟨⟨"abc", p, rfl, hparse⟩, hcompare⟩
    obtain ⟨source, q, hsource, hq, hpassword⟩ := hasks rule hrule
    obtain rfl : "abc" = source := Json.str.inj hsource
    obtain rfl : p = q := Except.ok.inj (hparse.symm.trans hq)
    have hkept : FirstBroken (Password.demands ⟨.custom p, none⟩ (.str "1 abc") Signup.record)
        none :=
      .kept (Json.textHas_str.mpr trivial) (.kept (Json.textHas_str.mpr (by decide))
        (.kept (Json.textHas_str.mpr hmatch) .none))
    refine ⟨rule, hrule, ?_⟩
    rw [hpassword.rule_eq hkept rfl hnotRequired]
    rfl

end Registry

end Rulebook
