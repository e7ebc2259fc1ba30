import Rulebook.Proofs.Message.Placeholder
import Rulebook.Proofs.Message.Template
import Rulebook.Proofs.Registry.Expression
import Rulebook.Regex.Engine
import Rulebook.Validator.Config

namespace Rulebook

namespace Config

-- Neither the settings nor the call have a text for a check at a path.
structure LeavesPlain (config : Config) (overrides : Texts) (path check : String) : Prop where
  messages : Members.get? check config.messages = none
  translator : config.translator = none
  overrides : Members.get? (path ++ "." ++ check) overrides = none

theorem LeavesPlain.resolve {config : Config} {overrides : Texts} {path check : String}
    (h : config.LeavesPlain overrides path check) (failure : Failure) :
    config.resolve overrides path check failure =
      ⟨failure.code.text, path, failure.message.render⟩ := by
  simp only [Config.resolve, renderCode, h.translator, h.overrides, Option.getD_none, template,
    h.messages, render]

end Config

namespace Extension

-- The text of an option that is there and is not null.
def optionText (options : List (String × Json)) (name : String) : Option String :=
  (Json.present? name options).map Json.display

-- What a template says with the texts of the options in place. That is what is reported, but
-- for percent signs in a row, of which the first two become one.
def Says (template : String) (options : List (String × Json)) (message : String) : Prop :=
  ∃ layout : Placeholder.Layout, layout.written = template.toList ∧
    message.toList = Template.fillChars (layout.filled (optionText options)) [] ∧
    (message.toList = layout.filled (optionText options) ↔
      ¬Template.doubled <:+: layout.filled (optionText options))

theorem says_describe (template : String) (options : List (String × Json)) :
    Says template options (Message.plain (describe template options)).render := by
  obtain ⟨layout, hlayout⟩ := Placeholder.exists_layout template.toList
  have hfilled : (describe template options).toList = layout.filled (optionText options) := by
    rw [describe, Placeholder.fill, String.toList_ofList, ← hlayout]
    exact layout.fillChars_written (optionText options)
  have hmessage : (Message.plain (describe template options)).render.toList =
      Template.fillChars (layout.filled (optionText options)) [] := by
    rw [Message.render, Template.fill, String.toList_ofList, Message.plain, hfilled]
  refine ⟨layout, hlayout, hmessage, ?_⟩
  rw [hmessage]
  exact Template.fillChars_nil_eq_iff _

-- A template that names no option and has no percent signs in a row is said as it is.
theorem Says.eq_template {template message : String} {options : List (String × Json)}
    (h : Says template options message)
    (hnames : ∀ key value, Json.present? key options = some value →
      ¬Placeholder.braced key.toList <:+: template.toList)
    (hpercents : ¬Template.doubled <:+: template.toList) : message = template := by
  obtain ⟨layout, hlayout, -, hiff⟩ := h
  have hfilled : layout.filled (optionText options) = template.toList := by
    rw [← hlayout]
    refine Placeholder.Layout.filled_eq_written fun slot hslot => ?_
    rw [optionText, Option.map_eq_none_iff, Option.eq_none_iff_forall_ne_some]
    intro value hvalue
    have hinside := layout.braced_infix hslot
    rw [hlayout, ← String.toList_ofList (l := slot.name)] at hinside
    exact hnames _ value hvalue hinside
  rw [hfilled] at hiff
  exact String.toList_injective (hiff.mpr hpercents)

end Extension

namespace Registry

variable {registry next : Registry} {name : String} {check : CustomCheck}
  {message : Option String} {code : Option ErrorCode}

-- The one error that is reported of a value that a described check rejects.
theorem eq_of_check_built {m : Matcher} {config : Config} {overrides : Texts} {path : String}
    (hplain : config.LeavesPlain overrides path name) {root value record : Json} {indexed : Bool}
    {options : List (String × Json)} {errors : List FieldError}
    (h : Run.check ⟨root, indexed, config.resolve overrides⟩ name value record path
      (CustomCheck.built name m message code options) = some errors) :
    errors = [⟨(code.getD .invalid).text, path, (Message.plain
      (Extension.describe (message.getD (defaultMessage name m)) options)).render⟩] := by
  rw [CustomCheck.built, Run.check_custom] at h
  cases hpasses : Run.passes ⟨root, indexed, config.resolve overrides⟩ path
      (m.inquiry options value ⟨record, root, path⟩) with
  | true =>
      rw [hpasses] at h
      cases h
  | false =>
      rw [hpasses] at h
      rw [← Option.some.inj h]
      exact congrArg (· :: []) (hplain.resolve _)

-- A check that a user adds says its message with the texts of the options in place, as they
-- are, unless percent signs come to stand in a row. Without a message a pattern says its source
-- in the same way, so that names in braces in it are names of options.
theorem register_says [Engine] (hadded : registry.register name check message code = (next, .ok ()))
    {args : Args} (hargs : args.rule = name) {rules : List (String × Rule)} {built : Check}
    (hbuilt : next.Builds args rules built) {config : Config} {overrides : Texts} {path : String}
    (hplain : config.LeavesPlain overrides path name) {root value record : Json} {indexed : Bool}
    {errors : List FieldError}
    (hrejected : Run.check ⟨root, indexed, config.resolve overrides⟩ name value record path built =
      some errors) :
    ∃ text, errors = [⟨(code.getD .invalid).text, path, text⟩] ∧
      (∀ template, message = some template → Extension.Says template args.options text) ∧
      ∀ source p, check.kind = .pattern source → Pattern.parse source = .ok p → message = none →
        Extension.Says ("should match " ++ p.display) args.options text ∧
        ((∀ key value, Json.present? key args.options = some value →
            ¬Placeholder.braced key.toList <:+: p.display.toList) →
          ¬Template.doubled <:+: p.display.toList → text = "should match " ++ p.display) := by
  obtain ⟨-, m, hmatcher, -⟩ := register_eq_ok_iff.mp hadded
  obtain rfl := (builds_register_iff hmatcher hadded hargs).mp hbuilt
  have hreport := Extension.says_describe (message.getD (defaultMessage name m)) args.options
  refine ⟨_, eq_of_check_built hplain hrejected, fun template hmessage => ?_,
    fun source p hkind hp hmessage => ?_⟩
  · rwa [hmessage] at hreport ⊢
  · have hpattern : m = .pattern p := by
      rw [hkind, matcher_pattern hp] at hmatcher
      exact (Except.ok.inj hmatcher).symm
    have htemplate : message.getD (defaultMessage name m) = "should match " ++ p.display := by
      rw [hmessage, hpattern]
      rfl
    rw [htemplate] at hreport ⊢
    refine ⟨hreport, fun hnames hpercents => hreport.eq_template (fun key value hkey => ?_) ?_⟩
    · have hopen : '{' ∉ "should match ".toList := by decide
      rw [String.toList_append, Placeholder.braced, List.cons_append,
        Text.infix_append_iff hopen]
      exact hnames key value hkey
    · have hpercent : '%' ∉ "should match ".toList := by decide
      rw [String.toList_append, Template.doubled, Text.infix_append_iff hpercent]
      exact hpercents

end Registry

-- Checks that refuse everything, with one option.
namespace Refused

def matcher : Matcher :=
  .predicate fun _ _ _ => .answer false

def check : CustomCheck :=
  { kind := .predicate fun _ _ _ => .answer false, params := ["rate"] }

def next (message : String) : Registry :=
  Registry.add {} "rate" (.custom matcher message .invalid ["rate"])

def args (rate : String) : Args :=
  { rule := "rate", field := "f", options := [("rate", .str rate)] }

def built (message rate : String) : Check :=
  CustomCheck.built "rate" matcher (some message) none (args rate).options

theorem builds [Engine] (message rate : String) :
    (next message).Builds (args rate) [] (built message rate) := by
  have hadded :
      Registry.register {} "rate" check (some message) none = (next message, .ok ()) := rfl
  exact (Registry.builds_register_iff rfl hadded rfl).mpr rfl

end Refused

open scoped Regex

-- Patterns that are registered without a message.
namespace Marked

def percent : Pattern :=
  ⟨(Spelled.regex "100%%").isMatch, "/100%%/"⟩

def twice : Pattern :=
  ⟨(Regex.rep (.char 'a') 2 (some 2)).isMatch, "/a{2}/"⟩

def next (p : Pattern) : Registry :=
  Registry.add {} "p" (.custom (.pattern p) ("should match " ++ p.display) .invalid [])

def args : Args :=
  { rule := "p", field := "f", options := [("2", .str "x")] }

def built (p : Pattern) : Check :=
  CustomCheck.built "p" (.pattern p) none none args.options

theorem register [Engine] {source : String} {p : Pattern} (hp : Pattern.parse source = .ok p) :
    Registry.register {} "p" ⟨.pattern source, []⟩ none none = (next p, .ok ()) :=
  Registry.register_eq_ok_iff.mpr
    ⟨by decide, .pattern p, Registry.matcher_pattern hp "p", rfl⟩

theorem builds [Engine] {source : String} {p : Pattern} (hp : Pattern.parse source = .ok p) :
    (next p).Builds args [] (built p) :=
  (Registry.builds_register_iff (Registry.matcher_pattern hp "p") (register hp) rfl).mpr rfl

theorem parse_percent : Pattern.parse "100%%" = .ok percent := by
  have hbare : Pattern.splitLiteral "100%%".toList = none := by decide
  have hread : Regex.parse? "100%%".toList = some (Spelled.regex "100%%") := by decide +kernel
  rw [Pattern.parse_of_splitLiteral_eq_none hbare]
  exact Pattern.compile_eq_ok (congrArg (Option.map Regex.isMatch) hread) "/100%%/"

theorem parse_twice : Pattern.parse "a{2}" = .ok twice := by
  have hbare : Pattern.splitLiteral "a{2}".toList = none := by decide
  have hread : Regex.parse? "a{2}".toList = some (.rep (.char 'a') 2 (some 2)) := by
    decide +kernel
  rw [Pattern.parse_of_splitLiteral_eq_none hbare]
  exact Pattern.compile_eq_ok (congrArg (Option.map Regex.isMatch) hread) "/a{2}/"

end Marked

namespace Registry

-- Of two percent signs in an option or in a pattern one is lost, and a count in a pattern gives
-- way to an option of its name.
theorem register_says_doubled :
    (register {} "rate" Refused.check (some "at most {rate}") none =
        (Refused.next "at most {rate}", .ok ()) ∧
      (Refused.next "at most {rate}").Builds (Refused.args "50%%") []
        (Refused.built "at most {rate}" "50%%") ∧
      Run.check ⟨.null, false, Config.resolve {} []⟩ "rate" (.str "x") .null "f"
        (Refused.built "at most {rate}" "50%%") = some [⟨"invalid", "f", "at most 50%"⟩] ∧
      Extension.describe "at most {rate}" (Refused.args "50%%").options = "at most 50%%") ∧
    (register {} "p" ⟨.pattern "100%%", []⟩ none none = (Marked.next Marked.percent, .ok ()) ∧
      (Marked.next Marked.percent).Builds Marked.args [] (Marked.built Marked.percent) ∧
      Run.check ⟨.null, false, Config.resolve {} []⟩ "p" (.str "x") .null "f"
        (Marked.built Marked.percent) = some [⟨"invalid", "f", "should match /100%/"⟩] ∧
      Marked.percent.display = "/100%%/") ∧
    register {} "p" ⟨.pattern "a{2}", []⟩ none none = (Marked.next Marked.twice, .ok ()) ∧
      (Marked.next Marked.twice).Builds Marked.args [] (Marked.built Marked.twice) ∧
      Run.check ⟨.null, false, Config.resolve {} []⟩ "p" (.str "x") .null "f"
        (Marked.built Marked.twice) = some [⟨"invalid", "f", "should match /ax/"⟩] ∧
      Marked.twice.display = "/a{2}/" := by
  refine ⟨⟨rfl, Refused.builds _ _, ?_, ?_⟩,
    ⟨Marked.register Marked.parse_percent, Marked.builds Marked.parse_percent, ?_, rfl⟩,
    Marked.register Marked.parse_twice, Marked.builds Marked.parse_twice, ?_, rfl⟩
  · decide +kernel
  · decide +kernel
  · decide +kernel
  · decide +kernel

theorem register_says_rate :
    (register {} "rate" Refused.check (some "at most {rate}") none =
        (Refused.next "at most {rate}", .ok ()) ∧
      (Refused.next "at most {rate}").Builds (Refused.args "50%") []
        (Refused.built "at most {rate}" "50%") ∧
      Config.LeavesPlain {} [] "f" "rate" ∧
      Run.check ⟨.null, false, Config.resolve {} []⟩ "rate" (.str "x") .null "f"
        (Refused.built "at most {rate}" "50%") = some [⟨"invalid", "f", "at most 50%"⟩]) ∧
    Extension.Says "at most {rate}" (Refused.args "50%").options "at most 50%" := by
  have hadded : register {} "rate" Refused.check (some "at most {rate}") none =
      (Refused.next "at most {rate}", .ok ()) := rfl
  have hplain : Config.LeavesPlain {} [] "f" "rate" := ⟨rfl, rfl, rfl⟩
  have hrejected : Run.check ⟨.null, false, Config.resolve {} []⟩ "rate" (.str "x") .null "f"
      (Refused.built "at most {rate}" "50%") = some [⟨"invalid", "f", "at most 50%"⟩] := by
    decide +kernel
  refine ⟨⟨hadded, Refused.builds _ _, hplain, hrejected⟩, ?_⟩
  obtain ⟨text, herrors, hreport, -⟩ :=
    register_says hadded rfl (Refused.builds _ _) hplain hrejected
  obtain rfl : "at most 50%" = text := (FieldError.mk.inj (List.cons.inj herrors).1).2.2
  exact hreport _ rfl

end Registry

end Rulebook
