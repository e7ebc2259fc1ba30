import Rulebook.Proofs.Regex.Display
import Rulebook.Proofs.Registry.Described
import Rulebook.Proofs.Run.Places
import Rulebook.Regex.Engine

namespace Rulebook

namespace Registry

-- The checks that are built under a name pass the values whose text is accepted, and no others.
def DecidesBy [Engine] (registry : Registry) (name : String) (accepts : List Char → Bool) : Prop :=
  ∀ args : Args, args.rule = name → ∀ rules, ∃ check, registry.Builds args rules check ∧
    ∀ (run : Run) value record path, run.check name value record path check = none ↔
      ∃ text, value.scalarText = some text ∧ accepts text.toList = true

variable {name source : String}

theorem exists_register_of_parse_eq_ok [Engine] {p : Pattern} (hp : Pattern.parse source = .ok p)
    (hname : Text.allBlank name = false) (registry : Registry) (params : List String)
    (message : Option String) (code : Option ErrorCode) :
    ∃ next, registry.register name ⟨.pattern source, params⟩ message code = (next, .ok ()) ∧
      next.DecidesBy name p.accepts := by
  have hmatcher := matcher_pattern hp name
  have hadded : registry.register name ⟨.pattern source, params⟩ message code = (_, .ok ()) :=
    register_eq_ok_iff.mpr ⟨hname, .pattern p, hmatcher, rfl⟩
  refine ⟨_, hadded, fun args hargs rules => ?_⟩
  refine ⟨_, (builds_register_iff hmatcher hadded hargs).mpr rfl, fun run value record path => ?_⟩
  rw [CustomCheck.built, Run.check_custom_eq_none_iff]
  exact Option.any_eq_true p.isMatch value.scalarText

theorem register_of_parse_eq_error [Engine] {error : PatternError}
    (herror : Pattern.parse source = .error error) (hname : Text.allBlank name = false)
    (registry : Registry) (params : List String) (message : Option String)
    (code : Option ErrorCode) :
    registry.register name ⟨.pattern source, params⟩ message code =
      (registry, .error (.badCheck name error)) := by
  simp [register, hname, matcher, herror]

-- An expression that a user adds as a check decides, as long as it does not itself stand
-- between slashes. If it does, what stands between the slashes decides in its place, or the
-- letters after them or the rest of it are refused. All of this holds with any engine.
theorem register_ofExpression [Engine] (e : Expression) (hname : Text.allBlank name = false)
    (registry : Registry) (message : Option String) (code : Option ErrorCode) :
    ((∀ body flags, ¬Pattern.Delimits body flags e.source.toList) →
      ∃ next, registry.register name (.ofExpression e) message code = (next, .ok ()) ∧
        next.DecidesBy name e.accepts) ∧
    ∀ body flags, Pattern.Delimits body flags e.source.toList →
      (∀ inner accepts, Pattern.withFlags body flags = .ok inner →
        Engine.compile? inner = some accepts →
        ∃ next, registry.register name (.ofExpression e) message code = (next, .ok ()) ∧
          next.DecidesBy name accepts) ∧
      (∀ inner, Pattern.withFlags body flags = .ok inner → Engine.compile? inner = none →
        registry.register name (.ofExpression e) message code =
          (registry, .error (.badCheck name .malformed))) ∧
      ∀ error, Pattern.withFlags body flags = .error error →
        registry.register name (.ofExpression e) message code =
          (registry, .error (.badCheck name error)) := by
  refine ⟨fun hbare => ?_, fun body flags hdelimits => ⟨?_, ?_, ?_⟩⟩
  · refine exists_register_of_parse_eq_ok (p := ⟨e.accepts, Pattern.slashed e.source.toList⟩) ?_
      hname registry [] message code
    rw [Pattern.parse_of_bare hbare, Pattern.compile_eq_ok e.compiled]
  · intro inner found hinner hfound
    refine exists_register_of_parse_eq_ok (p := ⟨found, e.source⟩) ?_ hname registry [] message code
    simp [Pattern.parse_of_delimits hdelimits, hinner, Pattern.compile_eq_ok hfound, bind,
      Except.bind]
  · intro inner hinner hnone
    refine register_of_parse_eq_error ?_ hname registry [] message code
    simp [Pattern.parse_of_delimits hdelimits, hinner, Pattern.compile, hnone, bind, Except.bind]
  · intro error herror
    refine register_of_parse_eq_error ?_ hname registry [] message code
    simp [Pattern.parse_of_delimits hdelimits, herror, bind, Except.bind]

end Registry

open scoped Regex

namespace Spelled

def path : Expression :=
  expression "/a/" (by decide +kernel)

def file : Expression :=
  expression "/a/b" (by decide +kernel)

end Spelled

namespace Registry

-- Between its slashes an expression loses them, and what comes after them may be refused.
theorem register_ofExpression_slashed :
    (∃ next, register {} "path" (.ofExpression Spelled.path) none none = (next, .ok ()) ∧
        next.DecidesBy "path" (Regex.char 'a').isMatch ∧
        (Regex.char 'a').isMatch "a".toList = true ∧
        Spelled.path.accepts "a".toList = false) ∧
      register {} "file" (.ofExpression Spelled.file) none none =
        ({}, .error (.badCheck "file" (.unknownFlag 'b'))) := by
  have hparse : Pattern.parse "/a/" = .ok ⟨(Regex.char 'a').isMatch, "/a/"⟩ := by
    have hinner : Engine.compile? ['a'] = some (Regex.char 'a').isMatch :=
      congrArg (Option.map Regex.isMatch)
        (by decide +kernel : Regex.parse? ['a'] = some (.char 'a'))
    have hdelimits : Pattern.Delimits ['a'] [] "/a/".toList := ⟨rfl, rfl⟩
    rw [Pattern.parse_of_delimits hdelimits]
    exact Pattern.compile_eq_ok hinner "/a/"
  have hname : Text.allBlank "path" = false := by decide
  obtain ⟨next, hnext, hdecides⟩ := exists_register_of_parse_eq_ok hparse hname {} [] none none
  refine ⟨⟨next, hnext, hdecides, ?_, ?_⟩, rfl⟩
  · decide +kernel
  · decide +kernel

theorem register_ofExpression_version :
    (Text.allBlank "version" = false ∧
      ∀ body flags, ¬Pattern.Delimits body flags Spelled.version.source.toList) ∧
    Spelled.version.accepts "api/v/2".toList = true ∧
    ∃ next,
      register {} "version" (.ofExpression Spelled.version) none none = (next, .ok ()) ∧
        next.DecidesBy "version" Spelled.version.accepts := by
  have hname : Text.allBlank "version" = false := by decide
  have hbare : ∀ body flags, ¬Pattern.Delimits body flags Spelled.version.source.toList := by
    intro body flags hdelimits
    have hnone : Pattern.splitLiteral "/v/2".toList = none := by decide
    cases hnone.symm.trans (Pattern.splitLiteral_eq_some_iff.mpr hdelimits)
  exact ⟨⟨hname, hbare⟩, by decide +kernel,
    (register_ofExpression Spelled.version hname {} none none).1 hbare⟩

end Registry

end Rulebook
