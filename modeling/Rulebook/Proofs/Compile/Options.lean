import Rulebook.Proofs.Compile.Plain
import Rulebook.Proofs.Json.Members
import Rulebook.Proofs.Regex.Literal
import Rulebook.Regex.Engine

namespace Rulebook

open Outcome

-- The ways to read the value of an option.
inductive Accessor
  | flag
  | count
  | bound
  | pattern
  | text

namespace Accessor

-- The values that can be read.
def Accepts [Engine] : Accessor → Json → Prop
  | flag, value => (∃ b, value = .bool b) ∨ value = .str "true" ∨ value = .str "false"
  | count, value => ∃ n, value.count? = some n
  | bound, value => ∃ b, value.bound? = some b
  | pattern, value => ∃ source p, value = .str source ∧ Pattern.parse source = .ok p
  | text, value => ∃ s, value = .str s

-- An option can be read if it is missing, null, or of a value that can be.
def Reads [Engine] (accessor : Accessor) (args : Args) (name : String) : Prop :=
  ∀ value, args.get? name = some value → accessor.Accepts value

end Accessor

namespace Args

variable {args : Args} {name : String}

theorem flag_eq_ok_true_iff :
    args.flag name = .ok true ↔
      args.get? name = some (.bool true) ∨ args.get? name = some (.str "true") := by
  unfold flag
  split <;> simp_all [refuse]

theorem reads_flag_iff [Engine] : Accessor.flag.Reads args name ↔ ∃ b, args.flag name = .ok b := by
  unfold flag Accessor.Reads Accessor.Accepts
  split <;> simp_all [refuse]

theorem reads_count_iff [Engine] :
    Accessor.count.Reads args name ↔ ∃ n, args.count name = .ok n := by
  unfold count Accessor.Reads Accessor.Accepts
  split
  · simp_all
  · split <;> simp_all [refuse]

theorem reads_bound_iff [Engine] :
    Accessor.bound.Reads args name ↔ ∃ b, args.bound name = .ok b := by
  unfold bound Accessor.Reads Accessor.Accepts
  split
  · simp_all
  · split <;> simp_all [refuse]

theorem reads_text_iff [Engine] : Accessor.text.Reads args name ↔ ∃ s, args.text name = .ok s := by
  unfold text Accessor.Reads Accessor.Accepts
  split <;> simp_all [refuse]

theorem reads_pattern_iff [Engine] :
    Accessor.pattern.Reads args name ↔ ∃ p, args.pattern name = .ok p := by
  unfold pattern text Accessor.Reads Accessor.Accepts
  split
  · simp_all [bind, Except.bind]
  · next source hsource =>
      cases hparse : Pattern.parse source <;>
        simp_all [refuse, bind, Except.bind]
  · simp_all [refuse, bind, Except.bind]

theorem pattern_eq_ok_some [Engine] {source : String} {p : Pattern}
    (h : args.get? name = some (.str source)) (hp : Pattern.parse source = .ok p) :
    args.pattern name = .ok (some p) := by
  simp [pattern, text, h, hp, bind, Except.bind]

end Args

namespace Builtin

-- The options that say whether a text may be empty.
def emptiness : List (String × Accessor) :=
  [("allowEmpty", .flag), ("empty", .flag)]

-- The options of the checks of the catalogue, and how they are read.
def options : Builtin → List (String × Accessor)
  | required | accepted | alpha | phone | boolean | enum | object => []
  | numeric | captcha => [("len", .count)]
  | string =>
      emptiness ++ [("min", .count), ("max", .count), ("format", .pattern), ("message", .text)]
  | id | date | dateTime | email | url => emptiness
  | password => [("format", .pattern), ("min", .count), ("max", .count), ("compare", .text)]
  | int | number => [("min", .bound), ("max", .bound)]
  | array => [("min", .count), ("max", .count)]

-- Options that are not looked at because of another one: the second name of a flag that is on
-- by its first name, and the bounds of a password that has a format.
inductive PassesOver (args : Args) : Builtin → String → Prop
  | secondName {builtin : Builtin} (hon : args.get? "allowEmpty" = some (.bool true) ∨
      args.get? "allowEmpty" = some (.str "true")) : PassesOver args builtin "empty"
  | min (hformat : args.has "format" = true) : PassesOver args password "min"
  | max (hformat : args.has "format" = true) : PassesOver args password "max"

variable {args : Args} {option : String} {accessor : Accessor}

theorem reads_of_allowEmpty [Engine] {allowed : Bool} (h : allowEmpty args = .ok allowed)
    (hoption : (option, accessor) ∈ emptiness) (builtin : Builtin)
    (hlooked : ¬PassesOver args builtin option) : accessor.Reads args option := by
  obtain ⟨first, hfirst, h⟩ := bind_eq_ok_iff.mp h
  simp only [emptiness, List.mem_cons, Prod.mk.injEq, List.not_mem_nil, or_false] at hoption
  obtain ⟨rfl, rfl⟩ | ⟨rfl, rfl⟩ := hoption
  · exact Args.reads_flag_iff.mpr ⟨first, hfirst⟩
  · cases first with
    | true => exact absurd (.secondName (Args.flag_eq_ok_true_iff.mp hfirst)) hlooked
    | false => exact Args.reads_flag_iff.mpr ⟨allowed, h⟩

theorem reads_of_fixedText [Engine] {name : String} {format : Pattern} {message : Option String}
    {leaf : Leaf} (h : fixedText name format message args = .ok leaf)
    (hoption : (option, accessor) ∈ emptiness) (builtin : Builtin)
    (hlooked : ¬PassesOver args builtin option) : accessor.Reads args option := by
  obtain ⟨allowed, hallowed, -⟩ := bind_eq_ok_iff.mp h
  exact reads_of_allowEmpty hallowed hoption builtin hlooked

theorem reads_of_textRules [Engine] {rules : TextRules} (h : textRules args = .ok rules)
    (hoption : (option, accessor) ∈ string.options) (hlooked : ¬PassesOver args string option) :
    accessor.Reads args option := by
  obtain ⟨allowed, hallowed, h⟩ := bind_eq_ok_iff.mp h
  obtain ⟨min, hmin, h⟩ := bind_eq_ok_iff.mp h
  obtain ⟨max, hmax, h⟩ := bind_eq_ok_iff.mp h
  obtain ⟨format, hformat, h⟩ := bind_eq_ok_iff.mp h
  obtain ⟨message, hmessage, -⟩ := bind_eq_ok_iff.mp h
  rcases List.mem_append.mp hoption with hoption | hoption
  · exact reads_of_allowEmpty hallowed hoption string hlooked
  · simp only [List.mem_cons, Prod.mk.injEq, List.not_mem_nil, or_false] at hoption
    obtain ⟨rfl, rfl⟩ | ⟨rfl, rfl⟩ | ⟨rfl, rfl⟩ | ⟨rfl, rfl⟩ := hoption
    · exact Args.reads_count_iff.mpr ⟨min, hmin⟩
    · exact Args.reads_count_iff.mpr ⟨max, hmax⟩
    · exact Args.reads_pattern_iff.mpr ⟨format, hformat⟩
    · exact Args.reads_text_iff.mpr ⟨message, hmessage⟩

theorem reads_of_limits [Engine] {limits : Limits} (h : Builtin.limits args = .ok limits)
    (hoption : (option, accessor) ∈ int.options) : accessor.Reads args option := by
  obtain ⟨min, hmin, h⟩ := bind_eq_ok_iff.mp h
  obtain ⟨max, hmax, -⟩ := bind_eq_ok_iff.mp h
  simp only [options, List.mem_cons, Prod.mk.injEq, List.not_mem_nil, or_false] at hoption
  obtain ⟨rfl, rfl⟩ | ⟨rfl, rfl⟩ := hoption
  · exact Args.reads_bound_iff.mpr ⟨min, hmin⟩
  · exact Args.reads_bound_iff.mpr ⟨max, hmax⟩

-- The bounds are read where no format takes their place.
theorem reads_of_charset [Engine] {charset : Charset} (h : Builtin.charset args = .ok charset)
    (hraw : args.raw = none) :
    Accessor.pattern.Reads args "format" ∧
      (args.has "format" = false →
        Accessor.count.Reads args "min" ∧ Accessor.count.Reads args "max") := by
  obtain ⟨format, hformat, h⟩ := bind_eq_ok_iff.mp h
  obtain ⟨given, hgiven, hformat⟩ := bind_eq_ok_iff.mp hformat
  refine ⟨Args.reads_pattern_iff.mpr ⟨given, hgiven⟩, fun hmissing => ?_⟩
  have hnone : args.get? "format" = none := by simpa [Args.has] using hmissing
  have hgiven : none = given := by
    simpa [Args.pattern, Args.text, hnone, bind, Except.bind] using hgiven
  subst hgiven
  have hformat : none = format := by simpa [hraw] using hformat
  subst hformat
  obtain ⟨min, hmin, h⟩ := bind_eq_ok_iff.mp h
  obtain ⟨max, hmax, -⟩ := bind_eq_ok_iff.mp h
  exact ⟨Args.reads_count_iff.mpr ⟨min, hmin⟩, Args.reads_count_iff.mpr ⟨max, hmax⟩⟩

theorem reads_of_passwordRules [Engine] {p : Password} (h : passwordRules args = .ok p)
    (hraw : args.raw = none) (hoption : (option, accessor) ∈ password.options)
    (hlooked : ¬PassesOver args password option) : accessor.Reads args option := by
  obtain ⟨charset, hcharset, h⟩ := bind_eq_ok_iff.mp h
  obtain ⟨compare, hcompare, -⟩ := bind_eq_ok_iff.mp h
  obtain ⟨hformat, hbounds⟩ := reads_of_charset hcharset hraw
  simp only [options, List.mem_cons, Prod.mk.injEq, List.not_mem_nil, or_false] at hoption
  obtain ⟨rfl, rfl⟩ | ⟨rfl, rfl⟩ | ⟨rfl, rfl⟩ | ⟨rfl, rfl⟩ := hoption
  · exact hformat
  · exact (hbounds (Bool.eq_false_iff.mpr fun hhas => hlooked (.min hhas))).1
  · exact (hbounds (Bool.eq_false_iff.mpr fun hhas => hlooked (.max hhas))).2
  · exact Args.reads_text_iff.mpr ⟨compare, hcompare⟩

-- What a check is built from could be read, but for what is passed over.
theorem reads_of_build [Engine] {builtin : Builtin} {parts : List (String × Rule)} {check : Check}
    (h : builtin.build args parts = .ok check) (hraw : args.raw = none)
    (hoption : (option, accessor) ∈ builtin.options)
    (hlooked : ¬PassesOver args builtin option) : accessor.Reads args option := by
  cases builtin
  case required | accepted | alpha | phone | boolean | enum | object =>
    exact absurd hoption List.not_mem_nil
  case numeric | captcha =>
    obtain ⟨count, hcount, -⟩ := bind_eq_ok_iff.mp h
    obtain ⟨rfl, rfl⟩ := Prod.mk.inj (List.mem_singleton.mp hoption)
    exact Args.reads_count_iff.mpr ⟨count, hcount⟩
  case string =>
    obtain ⟨rules, hrules, -⟩ := bind_eq_ok_iff.mp h
    exact reads_of_textRules hrules hoption hlooked
  case id | date | dateTime | email =>
    obtain ⟨leaf, hleaf, -⟩ := bind_eq_ok_iff.mp h
    exact reads_of_fixedText hleaf hoption _ hlooked
  case url =>
    obtain ⟨allowed, hallowed, -⟩ := bind_eq_ok_iff.mp h
    exact reads_of_allowEmpty hallowed hoption _ hlooked
  case password =>
    obtain ⟨p, hp, -⟩ := bind_eq_ok_iff.mp h
    exact reads_of_passwordRules hp hraw hoption hlooked
  case int | number =>
    obtain ⟨limits, hlimits, -⟩ := bind_eq_ok_iff.mp h
    exact reads_of_limits hlimits hoption
  case array =>
    obtain ⟨min, hmin, h⟩ := bind_eq_ok_iff.mp h
    obtain ⟨max, hmax, -⟩ := bind_eq_ok_iff.mp h
    simp only [options, List.mem_cons, Prod.mk.injEq, List.not_mem_nil, or_false] at hoption
    obtain ⟨rfl, rfl⟩ | ⟨rfl, rfl⟩ := hoption
    · exact Args.reads_count_iff.mpr ⟨min, hmin⟩
    · exact Args.reads_count_iff.mpr ⟨max, hmax⟩

end Builtin

namespace Args

-- What a check is built from, in two forms that differ in one option at most.
structure SameBut (option : String) (args other : Args) : Prop where
  rule : other.rule = args.rule
  raw : other.raw = args.raw
  get? : ∀ name, name ≠ option → other.get? name = args.get? name

namespace SameBut

variable {option name : String} {args other : Args} (h : SameBut option args other)
  (hname : name ≠ option)

include h hname

theorem text : other.text name = args.text name := by
  simp only [Args.text, h.get? name hname, refuse, h.rule]

theorem count : other.count name = args.count name := by
  simp only [Args.count, h.get? name hname, refuse, h.rule]

theorem pattern [Engine] : other.pattern name = args.pattern name := by
  simp only [Args.pattern, h.text hname, refuse, h.rule]

end SameBut

end Args

namespace Builtin

variable {args other : Args} {option : String}

theorem allowEmpty_eq_ok_true (hon : args.get? "allowEmpty" = some (.bool true) ∨
    args.get? "allowEmpty" = some (.str "true")) : allowEmpty args = .ok true := by
  rw [allowEmpty, Args.flag_eq_ok_true_iff.mpr hon]
  rfl

-- A format that is there is read or refused, and the bounds are not looked at.
theorem pattern_ne_ok_none [Engine] {name : String} (hname : args.has name = true) :
    args.pattern name ≠ .ok none := by
  obtain ⟨value, hvalue⟩ := Option.isSome_iff_exists.mp hname
  intro hnone
  obtain ⟨found, hfound, h⟩ := bind_eq_ok_iff.mp hnone
  cases found with
  | none =>
      rw [Args.text, hvalue] at hfound
      split at hfound
      · simp_all
      · simp_all
      · cases hfound
  | some source =>
      cases hparse : Pattern.parse source <;> simp [hparse, Args.refuse] at h

theorem charset_of_format [Engine] {format : Pattern}
    (h : passwordFormat args = .ok (some format)) : charset args = .ok (.custom format) := by
  rw [charset, h]
  rfl

theorem charset_of_pattern [Engine] {format : Pattern}
    (h : args.pattern "format" = .ok (some format)) : charset args = .ok (.custom format) := by
  apply charset_of_format
  rw [passwordFormat, h]
  rfl

theorem charset_of_sameBut [Engine] (h : Args.SameBut option args other)
    (hoption : "format" ≠ option)
    (hformat : args.has "format" = true) : Builtin.charset other = Builtin.charset args := by
  have hother := h.pattern hoption
  cases hpattern : args.pattern "format" with
  | error error =>
      rw [hpattern] at hother
      rw [Builtin.charset, Builtin.charset, passwordFormat, passwordFormat, hother, hpattern]
      rfl
  | ok given =>
      cases given with
      | some format =>
          rw [hpattern] at hother
          rw [charset_of_pattern hpattern, charset_of_pattern hother]
      | none => exact absurd hpattern (pattern_ne_ok_none hformat)

theorem passwordRules_of_sameBut [Engine] (h : Args.SameBut option args other)
    (hoption : "format" ≠ option) (hcompare : "compare" ≠ option)
    (hformat : args.has "format" = true) : passwordRules other = passwordRules args := by
  rw [passwordRules, passwordRules, charset_of_sameBut h hoption hformat, h.text hcompare]

theorem allowEmpty_of_sameBut (h : Args.SameBut "empty" args other)
    (hon : args.get? "allowEmpty" = some (.bool true) ∨
      args.get? "allowEmpty" = some (.str "true")) : allowEmpty other = allowEmpty args := by
  have hother := hon
  rw [← h.get? "allowEmpty" (by decide)] at hother
  rw [allowEmpty_eq_ok_true hon, allowEmpty_eq_ok_true hother]

-- An option that is passed over makes no difference to what is built.
theorem build_of_passesOver [Engine] {builtin : Builtin} {accessor : Accessor}
    (hoption : (option, accessor) ∈ builtin.options) (hpassed : PassesOver args builtin option)
    (h : Args.SameBut option args other) (parts : List (String × Rule)) :
    builtin.build other parts = builtin.build args parts := by
  cases hpassed with
  | min hformat =>
      rw [build, build, passwordRules_of_sameBut h (by decide) (by decide) hformat]
  | max hformat =>
      rw [build, build, passwordRules_of_sameBut h (by decide) (by decide) hformat]
  | secondName hon =>
      have hempty := allowEmpty_of_sameBut h hon
      cases builtin
      case string =>
        have hrules : textRules other = textRules args := by
          rw [textRules, textRules, hempty, h.count (by decide), h.count (by decide),
            h.pattern (by decide), h.text (by decide)]
        rw [build, build, hrules]
      case id | date | dateTime | email =>
        rw [build, build, fixedText, fixedText, hempty]
      case url => rw [build, build, hempty]
      all_goals simp [options] at hoption

end Builtin

namespace Registry

variable {registry : Registry} {builtin : Builtin} {option : String} {accessor : Accessor}
  {d : Descriptor}

theorem withOption_sameBut (d : Descriptor) (field option : String) (value : Json) :
    Args.SameBut option (d.args field) ((d.withOption option value).args field) := by
  refine ⟨rfl, rfl, fun name hname => ?_⟩
  show Json.present? name (Members.set option value d.options) = Json.present? name d.options
  rw [Json.present?, Json.present?, Members.get?_set, if_neg (Ne.symm hname)]

-- Only texts and passwords pass options over, and they have no rules inside.
theorem parts_of_passesOver {args : Args} (hoption : (option, accessor) ∈ builtin.options)
    (hpassed : builtin.PassesOver args option) (other : Args) : builtin.parts other = .ok [] := by
  cases hpassed with
  | min | max => rfl
  | secondName =>
      cases builtin
      case object | array => simp [Builtin.options] at hoption
      all_goals rfl

-- An option with a value that cannot be read is fatal, whatever the other options are, unless
-- it is passed over because of one of them. Then its value makes no difference at all.
theorem compileRule_options [Engine] (hentry : registry.resolve d.kind = some (.builtin builtin))
    (hoption : (option, accessor) ∈ builtin.options) (field : String) :
    (¬builtin.PassesOver (d.args field) option → ∀ value,
      Json.present? option d.options = some value → ¬accessor.Accepts value →
        ∃ error, registry.compileRule field (.descriptor d) = .error error) ∧
    (builtin.PassesOver (d.args field) option → ∀ value,
      registry.compileRule field (.descriptor (d.withOption option value)) =
        registry.compileRule field (.descriptor d)) := by
  constructor
  · intro hlooked value hvalue hrefused
    cases hrule : registry.compileRule field (.descriptor d) with
    | error error => exact ⟨error, rfl⟩
    | ok rule =>
        obtain ⟨entry, parts, rules, check, presence, hother, -, -, hbuild, -, -⟩ :=
          compileRule_descriptor_cases hrule
        obtain rfl := Option.some.inj (hentry.symm.trans hother)
        have hreads := Builtin.reads_of_build hbuild rfl hoption hlooked
        exact absurd (hreads value hvalue) hrefused
  · intro hpassed value
    have hlookup : registry.lookup d.kind = .ok (.builtin builtin) := lookup_eq_ok_iff.mpr hentry
    have hkind : (d.withOption option value).kind = d.kind := rfl
    have hpresence : registry.buildPresence field (d.withOption option value) =
        registry.buildPresence field d := rfl
    have hbuild := Builtin.build_of_passesOver hoption hpassed
      (withOption_sameBut d field option value)
    rw [compileRule_descriptor, compileRule_descriptor, hkind, hpresence, hlookup]
    simp only [bind, Except.bind, Entry.parts, Entry.build, hbuild,
      parts_of_passesOver hoption hpassed]

end Registry

open scoped Regex

-- Descriptors with an option that cannot be read.
namespace Misread

def note (allowed : Bool) : Descriptor :=
  { kind := "string", options := [("allowEmpty", .bool allowed), ("empty", .str "maybe")] }

def secret : Descriptor :=
  { kind := "password", options := [("format", .str "^a"), ("min", .str "abc")] }

theorem not_accepts_maybe [Engine] : ¬Accessor.flag.Accepts (.str "maybe") := by
  simp [Accessor.Accepts]

theorem not_accepts_abc [Engine] : ¬Accessor.count.Accepts (.str "abc") := by
  rintro ⟨n, hn⟩
  have hnone : (Json.str "abc").count? = none := by decide
  cases hnone.symm.trans hn

theorem exists_compileRule_secret :
    ∃ rule, Registry.compileRule {} "f" (.descriptor secret) = .ok rule := by
  have hentry : Registry.resolve {} secret.kind = some (.builtin .password) := rfl
  have hread : (Regex.parse? "^a".toList).isSome = true := by decide +kernel
  obtain ⟨regex, hregex⟩ := Option.isSome_iff_exists.mp hread
  have hcompiled : Engine.compile? "^a".toList = some regex.isMatch := by
    simp only [Engine.compile?, hregex, Option.map_some]
  have hbare : Pattern.splitLiteral "^a".toList = none := by decide
  have hparse : Pattern.parse "^a" = .ok ⟨regex.isMatch, "/^a/"⟩ := by
    rw [Pattern.parse_of_splitLiteral_eq_none hbare, Pattern.compile_eq_ok hcompiled]
    rfl
  have hpattern : (secret.args "f").pattern "format" = .ok (some ⟨regex.isMatch, "/^a/"⟩) :=
    Args.pattern_eq_ok_some rfl hparse
  have hbuild : Builtin.password.build (secret.args "f") [] =
      .ok (.leaf (.password ⟨.custom ⟨regex.isMatch, "/^a/"⟩, none⟩)) := by
    rw [Builtin.build, Builtin.passwordRules, Builtin.charset_of_pattern hpattern]
    rfl
  rw [Registry.compileRule_alone hentry rfl rfl rfl, Entry.build, hbuild]
  exact ⟨_, rfl⟩

end Misread

namespace Registry

-- The second name of a flag and the bounds beside a format can be of any kind.
theorem compileRule_options_unread :
    (("empty", .flag) ∈ Builtin.string.options ∧
      Json.present? "empty" (Misread.note true).options = some (.str "maybe") ∧
      ¬Accessor.flag.Accepts (.str "maybe") ∧
      ∃ rule, compileRule {} "f" (.descriptor (Misread.note true)) = .ok rule) ∧
    ("min", .count) ∈ Builtin.password.options ∧
      Json.present? "min" Misread.secret.options = some (.str "abc") ∧
      ¬Accessor.count.Accepts (.str "abc") ∧
      ∃ rule, compileRule {} "f" (.descriptor Misread.secret) = .ok rule := by
  refine ⟨⟨by simp [Builtin.options, Builtin.emptiness], rfl, Misread.not_accepts_maybe, ?_⟩,
    by simp [Builtin.options], rfl, Misread.not_accepts_abc, Misread.exists_compileRule_secret⟩
  rw [compileRule]
  exact ⟨_, rfl⟩

theorem compileRule_options_note :
    (resolve {} (Misread.note false).kind = some (.builtin .string) ∧
      ("empty", .flag) ∈ Builtin.string.options ∧
      ¬Builtin.string.PassesOver ((Misread.note false).args "f") "empty" ∧
      Json.present? "empty" (Misread.note false).options = some (.str "maybe") ∧
      ¬Accessor.flag.Accepts (.str "maybe")) ∧
    (∃ error, compileRule {} "f" (.descriptor (Misread.note false)) = .error error) ∧
    compileRule {} "f" (.descriptor ((Misread.note true).withOption "empty" .null)) =
      compileRule {} "f" (.descriptor (Misread.note true)) := by
  have hentry (allowed : Bool) :
      resolve {} (Misread.note allowed).kind = some (.builtin .string) := rfl
  have hoption : ("empty", .flag) ∈ Builtin.string.options := by
    simp [Builtin.options, Builtin.emptiness]
  have hlooked : ¬Builtin.string.PassesOver ((Misread.note false).args "f") "empty" := by
    rintro ⟨hon⟩
    have hoff : ((Misread.note false).args "f").get? "allowEmpty" = some (.bool false) := rfl
    simp [hoff] at hon
  have hpassed : Builtin.string.PassesOver ((Misread.note true).args "f") "empty" :=
    .secondName (.inl rfl)
  exact ⟨⟨hentry false, hoption, hlooked, rfl, Misread.not_accepts_maybe⟩,
    (compileRule_options (hentry false) hoption "f").1 hlooked _ rfl Misread.not_accepts_maybe,
    (compileRule_options (hentry true) hoption "f").2 hpassed .null⟩

end Registry

end Rulebook
