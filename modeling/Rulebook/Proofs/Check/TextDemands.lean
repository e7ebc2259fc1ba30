import Rulebook.Proofs.Check.Demand
import Rulebook.Proofs.Check.Text
import Rulebook.Proofs.Validator.Report
import Rulebook.Regex.Engine

namespace Rulebook

open Outcome

namespace TextRules

-- The texts that pass: an empty one where that is allowed, and any other one between the bounds
-- that matches the format.
def Accepts (rules : TextRules) (s : String) : Prop :=
  s = "" ∧ rules.allowEmpty = true ∨
    s ≠ "" ∧ (∀ max ∈ rules.max, s.length ≤ max) ∧ (∀ min ∈ rules.min, min ≤ s.length) ∧
      ∀ p ∈ rules.format, p.isMatch s = true

-- What is asked of a text that is not empty, in order.
def bounds (rules : TextRules) (value : Json) : List Demand :=
  (rules.max.map fun max => ⟨value.TextHas (·.length ≤ max), .tooLong max⟩).toList ++
    ((rules.min.map fun min => ⟨value.TextHas (min ≤ ·.length), .tooShort min⟩).toList ++
      (rules.format.map fun p => ⟨value.TextHas fun s => p.isMatch s = true,
        (rules.message.map (.invalid · [])).getD (.noMatch p)⟩).toList)

-- What is asked of a value where an empty text is not allowed, in order.
def demands (rules : TextRules) (value : Json) : List Demand :=
  ⟨value.TextHas fun _ => True, .notText⟩ :: ⟨value.TextHas (· ≠ ""), .emptyText⟩ ::
    rules.bounds value

theorem formatFailure_eq (rules : TextRules) (p : Pattern) :
    rules.formatFailure p = (rules.message.map (Failure.invalid · [])).getD (.noMatch p) := by
  unfold formatFailure
  cases rules.message <;> rfl

theorem firstBroken (rules : TextRules) (s : String) :
    FirstBroken (rules.bounds (.str s)) (rules.broken s) := by
  have hmax : ∀ max ∈ rules.max,
      decide (max < s.length) = true ↔ ¬(Json.str s).TextHas (·.length ≤ max) := by simp
  have hmin : ∀ min ∈ rules.min,
      decide (s.length < min) = true ↔ ¬(Json.str s).TextHas (min ≤ ·.length) := by simp
  have hformat : ∀ p ∈ rules.format,
      (!p.isMatch s) = true ↔ ¬(Json.str s).TextHas fun s => p.isMatch s = true := by simp
  have hfailure : rules.formatFailure =
      fun p => (rules.message.map (Failure.invalid · [])).getD (.noMatch p) :=
    funext rules.formatFailure_eq
  rw [broken, hfailure]
  exact (FirstBroken.of_option hmax).append
    ((FirstBroken.of_option hmin).append (FirstBroken.of_option hformat))

-- An empty text that is allowed is not looked at any further.
theorem verdict_of_allowed {rules : TextRules} (h : rules.allowEmpty = true) :
    rules.verdict (.str "") = .pass := by
  rw [verdict, textOf_str, if_pos rfl, if_pos h]

-- Any other value is judged by the first demand that it does not meet.
theorem exists_firstBroken (rules : TextRules) {value : Json}
    (h : value = .str "" → rules.allowEmpty = false) :
    ∃ failure, FirstBroken (rules.demands value) failure ∧
      rules.verdict value = .ofOption failure := by
  cases value with
  | str s =>
      have htext : (Json.str s).TextHas fun _ => True := Json.textHas_str.mpr trivial
      rw [verdict, textOf_str]
      by_cases hs : s = ""
      · subst hs
        rw [if_pos rfl, h rfl]
        exact ⟨_, .kept htext (.broken fun hne => Json.textHas_str.mp hne rfl), rfl⟩
      · rw [if_neg hs]
        exact ⟨_, .kept htext (.kept (Json.textHas_str.mpr hs) (rules.firstBroken s)), rfl⟩
  | _ => exact ⟨some .notText, .broken (by simp [Json.TextHas]), rfl⟩

theorem demands_hold_iff (rules : TextRules) (value : Json) :
    (∀ demand ∈ rules.demands value, demand.holds) ↔
      ∃ s, value = .str s ∧ s ≠ "" ∧ (∀ max ∈ rules.max, s.length ≤ max) ∧
        (∀ min ∈ rules.min, min ≤ s.length) ∧ ∀ p ∈ rules.format, p.isMatch s = true := by
  cases value with
  | str s =>
      cases hmax : rules.max <;> cases hmin : rules.min <;> cases hformat : rules.format <;>
        simp [demands, bounds, hmax, hmin, hformat]
  | _ => simp [demands, Json.TextHas]

theorem verdict_eq_pass_iff (rules : TextRules) (value : Json) :
    rules.verdict value = .pass ↔ ∃ s, value = .str s ∧ rules.Accepts s := by
  by_cases hallowed : value = .str "" ∧ rules.allowEmpty = true
  · obtain ⟨rfl, hempty⟩ := hallowed
    exact iff_of_true (verdict_of_allowed hempty) ⟨"", rfl, .inl ⟨rfl, hempty⟩⟩
  · have hstrict : value = .str "" → rules.allowEmpty = false := by
      intro hvalue
      simpa [hvalue] using hallowed
    obtain ⟨failure, hbroken, hverdict⟩ := rules.exists_firstBroken hstrict
    have hnone : Verdict.ofOption failure = .pass ↔ failure = none := by
      cases failure <;> simp [Verdict.ofOption]
    rw [hverdict, hnone, hbroken.eq_none_iff, demands_hold_iff]
    refine exists_congr fun s => and_congr_right fun hs => ?_
    refine (or_iff_right ?_).symm
    rintro ⟨rfl, hempty⟩
    exact hallowed ⟨hs, hempty⟩

-- What a check says of the values: it passes those texts, and of any other value it reports the
-- first demand that is not met.
structure Judges (rules : TextRules) (check : Check) : Prop where
  passes_iff : ∀ (run : Run) (name path : String) (value record : Json),
    run.check name value record path check = none ↔ ∃ s, value = .str s ∧ rules.Accepts s
  reports : ∀ (run : Run) (name path : String) (value record : Json),
    (value = .str "" → rules.allowEmpty = false) →
    ∃ failure, FirstBroken (rules.demands value) failure ∧
      run.check name value record path check =
        failure.map fun failure => [run.resolve path name failure]

theorem judges (rules : TextRules) (name : String) : rules.Judges (.leaf (.text name rules)) := by
  refine ⟨fun run name path value record => ?_, fun run name path value record hstrict => ?_⟩
  · rw [Run.check_leaf_eq_none_iff, Leaf.verdict, verdict_eq_pass_iff]
  · obtain ⟨failure, hbroken, hverdict⟩ := rules.exists_firstBroken hstrict
    refine ⟨failure, hbroken, ?_⟩
    rw [Run.check, Leaf.verdict, hverdict]
    cases failure <;> rfl

-- The value is reported for the first demand that it does not meet.
theorem Judges.check_eq {rules : TextRules} {check : Check} (h : rules.Judges check)
    {value : Json} {failure : Option Failure} (hbroken : FirstBroken (rules.demands value) failure)
    (hstrict : value = .str "" → rules.allowEmpty = false) (run : Run)
    (name path : String) (record : Json) :
    run.check name value record path check =
      failure.map fun failure => [run.resolve path name failure] := by
  obtain ⟨other, hother, hcheck⟩ := h.reports run name path value record hstrict
  rw [hcheck, hother.unique hbroken]

end TextRules

def Json.pattern? [Engine] (value : Json) : Option Pattern :=
  value.string?.bind fun source => (Pattern.parse source).toOption

namespace Args

variable {α : Type} {args : Args} {name : String}

-- An option gives nothing if it is left out, and what its value is read as if not.
def Gives (args : Args) (name : String) (read : Json → Option α) (given : Option α) : Prop :=
  (args.get? name).map read = given.map some

theorem gives_of_count {n : Option Nat} (h : args.count name = .ok n) :
    args.Gives name Json.count? n := by
  unfold count at h
  split at h
  · next hget =>
      rw [Gives, hget, ← Except.ok.inj h]
      rfl
  · next value hget =>
      split at h
      · next k hcount =>
          rw [Gives, hget, Option.map_some, hcount, ← Except.ok.inj h]
          rfl
      · cases h

theorem gives_of_text {s : Option String} (h : args.text name = .ok s) :
    args.Gives name Json.string? s := by
  unfold text at h
  split at h
  · next hget =>
      rw [Gives, hget, ← Except.ok.inj h]
      rfl
  · next s hget =>
      rw [Gives, hget, ← Except.ok.inj h]
      rfl
  · cases h

theorem gives_of_pattern [Engine] {p : Option Pattern} (h : args.pattern name = .ok p) :
    args.Gives name Json.pattern? p := by
  obtain ⟨source, hsource, h⟩ := bind_eq_ok_iff.mp h
  have hgives := gives_of_text hsource
  rw [Gives] at hgives ⊢
  cases source with
  | none =>
      rw [← Except.ok.inj h, Option.map_eq_none_iff.mp hgives]
      rfl
  | some source =>
      obtain ⟨value, hvalue, hread⟩ := Option.map_eq_some_iff.mp hgives
      cases hparse : Pattern.parse source with
      | error error => simp [hparse, refuse] at h
      | ok format =>
          simp only [hparse] at h
          rw [← Except.ok.inj h, hvalue, Option.map_some, Json.pattern?, hread, Option.bind_some,
            hparse]
          rfl

-- What the options of a text ask for.
structure GivesText [Engine] (args : Args) (rules : TextRules) : Prop where
  allowEmpty : rules.allowEmpty = true ↔ args.AllowsEmpty
  min : args.Gives "min" Json.count? rules.min
  max : args.Gives "max" Json.count? rules.max
  format : args.Gives "format" Json.pattern? rules.format
  message : args.Gives "message" Json.string? rules.message

theorem Gives.unique {read : Json → Option α} {given other : Option α}
    (h : args.Gives name read given) (hother : args.Gives name read other) : given = other :=
  (Option.map_inj_right fun _ _ => Option.some.inj).mp (h.symm.trans hother)

-- The options ask for one thing.
theorem GivesText.unique [Engine] {rules other : TextRules} (h : args.GivesText rules)
    (hother : args.GivesText other) : rules = other := by
  have hempty : rules.allowEmpty = other.allowEmpty :=
    Bool.eq_iff_iff.mpr (h.allowEmpty.trans hother.allowEmpty.symm)
  obtain ⟨_, _, _, _, _⟩ := rules
  obtain ⟨_, _, _, _, _⟩ := other
  obtain rfl := hempty
  obtain rfl := h.min.unique hother.min
  obtain rfl := h.max.unique hother.max
  obtain rfl := h.format.unique hother.format
  obtain rfl := h.message.unique hother.message
  rfl

end Args

namespace Builtin

variable {args other : Args} {builtin : Builtin} {format : Pattern} {message : Option String}

theorem givesText_of_textRules [Engine] {rules : TextRules} (h : textRules args = .ok rules) :
    args.GivesText rules := by
  obtain ⟨allowed, hallowed, h⟩ := bind_eq_ok_iff.mp h
  obtain ⟨min, hmin, h⟩ := bind_eq_ok_iff.mp h
  obtain ⟨max, hmax, h⟩ := bind_eq_ok_iff.mp h
  obtain ⟨format, hformat, h⟩ := bind_eq_ok_iff.mp h
  obtain ⟨message, hmessage, h⟩ := bind_eq_ok_iff.mp h
  obtain rfl := Except.ok.inj h
  exact ⟨allowed_iff hallowed, Args.gives_of_count hmin, Args.gives_of_count hmax,
    Args.gives_of_pattern hformat, Args.gives_of_text hmessage⟩

-- The checks of texts of a fixed form, and what they say of a text of another form.
def fixedForm? : Builtin → Option (Pattern × Option String)
  | id => some (Format.numberPattern, none)
  | date => some (Format.datePattern, none)
  | dateTime => some (Format.dateTimePattern, none)
  | email => some (Format.emailPattern, some "should be an email")
  | _ => none

theorem exists_build_of_fixedForm [Engine] (h : builtin.fixedForm? = some (format, message)) :
    ∃ name, ∀ args parts, builtin.build args parts =
      (fixedText name format message args).map .leaf := by
  cases builtin <;> cases h
  · exact ⟨"id", fun args parts => rfl⟩
  · exact ⟨"date", fun args parts => rfl⟩
  · exact ⟨"dateTime", fun args parts => rfl⟩
  · exact ⟨"email", fun args parts => rfl⟩

-- Whether an empty text is allowed is a matter of two options.
theorem allowEmpty_congr (hrule : other.rule = args.rule)
    (h : ∀ name ∈ ["allowEmpty", "empty"], other.get? name = args.get? name) :
    allowEmpty other = allowEmpty args := by
  obtain ⟨hfirst, hsecond⟩ : other.get? "allowEmpty" = args.get? "allowEmpty" ∧
      other.get? "empty" = args.get? "empty" := by simpa using h
  simp only [allowEmpty, Args.flag, Args.refuse, hrule, hfirst, hsecond]

end Builtin

namespace Registry

variable {registry : Registry} {args : Args} {parts : List (String × Rule)} {check : Check}
  {builtin : Builtin}

-- The check of texts passes those that are allowed to be empty, or lie between the bounds and
-- match the format, as far as its options give these, and reports the first of these demands that
-- is not met. The checks of a fixed form are the same with that form for the format, and no option
-- makes a difference to them but those that allow an empty text.
theorem builds_text [Engine] (hentry : registry.resolve args.rule = some (.builtin builtin))
    (hcheck : registry.Builds args parts check) :
    (builtin = .string → ∃ rules, args.GivesText rules ∧ rules.Judges check) ∧
      ∀ format message, builtin.fixedForm? = some (format, message) →
        (∃ allowEmpty, (allowEmpty = true ↔ args.AllowsEmpty) ∧
          TextRules.Judges { allowEmpty, format := some format, message } check) ∧
        ∀ other : Args, other.rule = args.rule →
          (∀ name ∈ ["allowEmpty", "empty"], other.get? name = args.get? name) →
            registry.Builds other parts check := by
  obtain ⟨entry, hresolved, hbuild⟩ := hcheck
  obtain rfl := Option.some.inj (hentry.symm.trans hresolved)
  refine ⟨fun hstring => ?_, fun format message hform => ?_⟩
  · subst hstring
    obtain ⟨rules, hrules, hbuild⟩ := bind_eq_ok_iff.mp hbuild
    obtain rfl := Except.ok.inj hbuild
    exact ⟨rules, Builtin.givesText_of_textRules hrules, rules.judges "string"⟩
  · obtain ⟨name, hname⟩ := Builtin.exists_build_of_fixedForm hform
    rw [Entry.build, hname] at hbuild
    refine ⟨?_, fun other hrule hother => ⟨_, hrule ▸ hentry, ?_⟩⟩
    · obtain ⟨leaf, hleaf, rfl⟩ := map_eq_ok_iff.mp hbuild
      obtain ⟨allowEmpty, hallowed, rfl⟩ := Builtin.exists_of_fixedText hleaf
      exact ⟨allowEmpty, hallowed, TextRules.judges _ name⟩
    · rw [Entry.build, hname, Builtin.fixedText, Builtin.allowEmpty_congr hrule hother]
      exact hbuild

end Registry

open scoped Regex

-- A nickname that may be empty and else has an a in it, and an identifier with an option that its
-- check does not know.
namespace Nickname

def args : Args :=
  { rule := "string", field := "nickname"
    options := [("empty", .str "true"), ("max", .str "5"), ("format", .str "a"),
      ("message", .str "needs an a")] }

def rules : TextRules :=
  { allowEmpty := true, max := some 5, format := some ⟨(Regex.char 'a').isMatch, "/a/"⟩
    message := some "needs an a" }

def check : Check :=
  .leaf (.text "string" rules)

theorem textRules : Builtin.textRules args = .ok rules := by
  have hread : Engine.compile? "a".toList = some (Regex.char 'a').isMatch :=
    congrArg (Option.map Regex.isMatch)
      (by decide +kernel : Regex.parse? "a".toList = some (.char 'a'))
  have hbare : Pattern.splitLiteral "a".toList = none := by decide
  have hparse : Pattern.parse "a" = .ok ⟨(Regex.char 'a').isMatch, "/a/"⟩ := by
    rw [Pattern.parse_of_splitLiteral_eq_none hbare, Pattern.compile_eq_ok hread]
    rfl
  have hformat : args.pattern "format" = .ok (some ⟨(Regex.char 'a').isMatch, "/a/"⟩) :=
    Args.pattern_eq_ok_some rfl hparse
  rw [Builtin.textRules, hformat]
  rfl

theorem builds : Registry.Builds {} args [] check := by
  refine ⟨.builtin .string, rfl, ?_⟩
  rw [Entry.build, Builtin.build, textRules]
  rfl

def strictArgs : Args :=
  { rule := "id", field := "number", options := [] }

def strictCheck : Check :=
  .leaf (.text "id" { format := some Format.numberPattern })

def looseArgs : Args :=
  { strictArgs with options := [("min", .bool true)] }

def run : Run :=
  ({} : Validator).run .null []

end Nickname

theorem Registry.builds_text_nickname :
    (Registry.resolve {} Nickname.args.rule = some (.builtin .string) ∧
      Registry.Builds {} Nickname.args [] Nickname.check) ∧
    (Nickname.run.check "string" (.str "") .null "nickname" Nickname.check = none ∧
      Nickname.run.check "string" (.str "adams") .null "nickname" Nickname.check = none ∧
      Nickname.run.check "string" (.str "bernhard") .null "nickname" Nickname.check =
        some [⟨"invalid", "nickname", "length should smaller than 5"⟩] ∧
      Nickname.run.check "string" (.str "bob") .null "nickname" Nickname.check =
        some [⟨"invalid", "nickname", "needs an a"⟩]) ∧
    (Registry.resolve {} Nickname.strictArgs.rule = some (.builtin .id) ∧
      Registry.Builds {} Nickname.strictArgs [] Nickname.strictCheck ∧
      Builtin.fixedForm? .id = some (Format.numberPattern, none)) ∧
    Nickname.run.check "id" (.str "") .null "number" Nickname.strictCheck =
      some [⟨"invalid", "number", "should not be empty"⟩] ∧
    Registry.Builds {} Nickname.looseArgs [] Nickname.strictCheck := by
  have hentry : Registry.resolve {} Nickname.args.rule = some (.builtin .string) := rfl
  have hid : Registry.resolve {} Nickname.strictArgs.rule = some (.builtin .id) := rfl
  have hstrict : Registry.Builds {} Nickname.strictArgs [] Nickname.strictCheck := ⟨_, hid, rfl⟩
  obtain ⟨rules, hgives, hjudges⟩ := (builds_text hentry Nickname.builds).1 rfl
  obtain rfl := hgives.unique (Builtin.givesText_of_textRules Nickname.textRules)
  have htext {s : String} : (Json.str s).TextHas fun _ => True := Json.textHas_str.mpr trivial
  have hpasses (s : String) := hjudges.passes_iff Nickname.run "string" "nickname" (.str s) .null
  have hmatch : Regex.isMatch (.char 'a') "adams".toList = true := by decide +kernel
  have hother : Regex.isMatch (.char 'a') "bob".toList = false := by decide +kernel
  have hlong : FirstBroken (Nickname.rules.demands (.str "bernhard")) (some (.tooLong 5)) :=
    .kept htext (.kept (Json.textHas_str.mpr (by decide))
      (.broken fun h => absurd (Json.textHas_str.mp h) (by decide)))
  have hform : FirstBroken (Nickname.rules.demands (.str "bob"))
      (some (.invalid "needs an a" [])) :=
    .kept htext (.kept (Json.textHas_str.mpr (by decide)) (.kept (Json.textHas_str.mpr (by decide))
      (.broken fun h => absurd (Json.textHas_str.mp h) (by
        rw [Pattern.isMatch]
        exact Bool.eq_false_iff.mp hother))))
  have hempty : FirstBroken
      (TextRules.demands { format := some Format.numberPattern } (.str "")) (some .emptyText) :=
    .kept htext (.broken fun h => Json.textHas_str.mp h rfl)
  obtain ⟨⟨allowEmpty, hallowed, hidentifies⟩, hsame⟩ :=
    (builds_text hid hstrict).2 Format.numberPattern none rfl
  have hnone (name : String) : Nickname.strictArgs.get? name = none := rfl
  obtain rfl : allowEmpty = false :=
    Bool.eq_false_iff.mpr fun h => by simpa [Args.AllowsEmpty, Args.IsOn, hnone] using hallowed.mp h
  refine ⟨⟨hentry, Nickname.builds⟩, ⟨?_, ?_, ?_, ?_⟩, ⟨hid, hstrict, rfl⟩, ?_, ?_⟩
  · exact (hpasses "").mpr ⟨"", rfl, .inl ⟨rfl, rfl⟩⟩
  · refine (hpasses "adams").mpr ⟨"adams", rfl, .inr ⟨by decide, ?_, ?_, ?_⟩⟩
    · rintro _ ⟨⟩
      decide
    · rintro _ ⟨⟩
    · rintro _ ⟨⟩
      exact hmatch
  · rw [hjudges.check_eq hlong fun h => absurd (Json.str.inj h) (by decide)]
    rfl
  · rw [hjudges.check_eq hform fun h => absurd (Json.str.inj h) (by decide)]
    rfl
  · rw [hidentifies.check_eq hempty fun _ => rfl]
    rfl
  · exact hsame Nickname.looseArgs rfl
      (List.forall_mem_cons.mpr ⟨rfl, List.forall_mem_singleton.mpr rfl⟩)

end Rulebook
