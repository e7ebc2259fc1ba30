import Rulebook.Proofs.Run.Findings
import Rulebook.Proofs.Run.Wordless
import Rulebook.Proofs.Validator.Report
import Rulebook.Regex.Engine

namespace Rulebook

-- A failure before it is put into words. The check goes by the name it is declared by.
structure RawFailure where
  path : String
  check : String
  template : String
  args : List String
  code : ErrorCode

namespace RawFailure

-- A text for the check takes the place of its own template and leaves no arguments.
def wording (messages : Texts) (raw : RawFailure) : Message :=
  match Members.get? raw.check messages with
  | some text => ⟨text, []⟩
  | none => ⟨raw.template, raw.args⟩

-- A text for the path and the check stands as it is. All else is translated, or has
-- its arguments put in place.
def message (messages : Texts) (translator : Option Translator) (overrides : Texts)
    (raw : RawFailure) : String :=
  match Members.get? (raw.path ++ "." ++ raw.check) overrides, translator with
  | some text, _ => text
  | none, some translate => translate (raw.wording messages).template (raw.wording messages).args
  | none, none => Template.fill (raw.wording messages).template (raw.wording messages).args

def codeText (translator : Option Translator) (raw : RawFailure) : String :=
  match translator with
  | some translate => translate raw.code.text []
  | none => raw.code.text

def error (messages : Texts) (translator : Option Translator) (overrides : Texts)
    (raw : RawFailure) : FieldError :=
  { code := raw.codeText translator
    field := raw.path
    message := raw.message messages translator overrides }

end RawFailure

-- A predicate that may have other values validated on its way, but does not look at the words
-- of the errors. Nor do the checks that it has them validated by.
def MatcherOf.IgnoresWords : Matcher → Prop
  | predicate holds => ∀ options value context, (holds value options context).IgnoresWords ∧
      ∀ rule, (holds value options context).Asks rule → rule.Throughout Check.IgnoresWords
  | pattern _ => True

namespace Registry

def IgnoresWords (registry : Registry) : Prop :=
  ∀ name m template code params,
    Members.get? name registry.added = some (.custom m template code params) → m.IgnoresWords

-- What the predicates of a registry answer in a validation, by their names: whether they let
-- a value pass, given the options, the record that it is in and its path.
abbrev Answers := String → List (String × Json) → Json → Json → String → Bool

def answers (registry : Registry) (run : Run) : Answers := fun name options value record path =>
  match Members.get? name registry.added with
  | some (.custom m ..) => run.passes path (m.inquiry options value ⟨record, run.root, path⟩)
  | _ => true

end Registry

namespace Validator

end Validator

-- A check of a user for guests, who are to have a name.
namespace Guestbook

def nameRule : Rule :=
  .ofChecks [("required", .leaf .required)]

-- It has the name validated and decides by what is found there.
def asking (decide : List FieldError → Bool) (value : Json) (_ : List (String × Json))
    (_ : Context) : Inquiry Check Bool :=
  .object [("name", nameRule)] value fun errors => .answer (decide errors)

def registry (decide : List FieldError → Bool) : Registry :=
  Registry.add {} "named" (.custom (.predicate (asking decide)) "should have a name" .invalid [])

def schema : Schema :=
  ⟨[("guest", .pipe "named")]⟩

def rules (decide : List FieldError → Bool) : RuleSet :=
  ⟨[("guest", .ofChecks [("named", .custom "named" (.predicate (asking decide)) []
    "should have a name" .invalid)])]⟩

def data : Json :=
  .obj [("guest", .obj [])]

def onlyRequired (errors : List FieldError) : Bool :=
  errors.all (·.message == "required")

theorem registered [Engine] (decide : List FieldError → Bool) : (registry decide).Registered := by
  have hadded : Registry.register {} "named" { kind := .predicate (asking decide) }
      (some "should have a name") none = (registry decide, .ok ()) := rfl
  exact .register .catalogue hadded

theorem compile [Engine] (decide : List FieldError → Bool) :
    (registry decide).compile schema = .ok (rules decide) := by
  have hguest : (registry decide).compileRule "guest" (.pipe "named") =
      .ok (.ofChecks [("named", .custom "named" (.predicate (asking decide)) []
        "should have a name" .invalid)]) := by
    rw [Registry.compileRule]
    rfl
  exact Registry.compile_eq_ok_iff.mpr (.cons ⟨rfl, hguest⟩ .nil)

end Guestbook

namespace Validator

open scoped Regex

-- A predicate that looks at words lets a text decide what fails.
theorem validateCompiled_nosy [Engine] :
    (Guestbook.registry Guestbook.onlyRequired).Registered ∧
      (Guestbook.registry Guestbook.onlyRequired).compile Guestbook.schema =
        .ok (Guestbook.rules Guestbook.onlyRequired) ∧
      validateCompiled ⟨Guestbook.registry Guestbook.onlyRequired, {}⟩ Guestbook.data
          (Guestbook.rules Guestbook.onlyRequired) [] = none ∧
      validateCompiled
          ⟨Guestbook.registry Guestbook.onlyRequired, { messages := [("required", "who is it")] }⟩
          Guestbook.data (Guestbook.rules Guestbook.onlyRequired) [] =
        some ⟨⟨"invalid", "guest", "should have a name"⟩, []⟩ :=
  ⟨Guestbook.registered _, Guestbook.compile _, rfl, rfl⟩

end Validator

end Rulebook
