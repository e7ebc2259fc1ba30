import Rulebook.Proofs.Compile.Outcome
import Rulebook.Proofs.Regex.Literal
import Rulebook.Regex.Engine

namespace Rulebook

open Outcome

namespace Pattern

variable {source : String} {p : Pattern}

-- The last slash is the one that was added, and there is nothing after it.
theorem delimits_slashed (source : List Char) :
    Delimits source [] (slashed source).toList := by
  rw [slashed, String.toList_ofList]
  exact ⟨rfl, rfl⟩

-- Between slashes any source is the expression itself, also one that has slashes of its own.
theorem parse_slashed [Engine] (source : List Char) :
    parse (slashed source) = compile source (slashed source) := by
  rw [parse_of_delimits (delimits_slashed source)]
  rfl

theorem display_of_compile [Engine] {source : List Char} {display : String}
    (h : compile source display = .ok p) : p.display = display := by
  unfold compile at h
  split at h
  · cases h
    rfl
  · cases h

-- A source between slashes is shown as it is, and a bare one is put between slashes.
theorem parse_display_of_parse [Engine] (h : parse source = .ok p) : parse p.display = .ok p := by
  cases hsplit : splitLiteral source.toList with
  | none =>
      rw [parse_of_splitLiteral_eq_none hsplit] at h
      rw [display_of_compile h, parse_slashed, h]
  | some parts =>
      have hread := h
      rw [parse_of_delimits (splitLiteral_eq_some_iff.mp hsplit)] at hread
      obtain ⟨inner, -, hcompile⟩ := bind_eq_ok_iff.mp hread
      rw [display_of_compile hcompile, h]

theorem parse_display_ofExpression [Engine] (e : Expression) :
    parse (ofExpression e).display = .ok (ofExpression e) := by
  rw [ofExpression, parse_slashed, compile_eq_ok e.compiled]

-- What is shown for a pattern can be read, is shown again as it is, and matches what the pattern
-- matches. Patterns that are shown alike match the same texts. What is shown for an expression
-- matches what the expression matches. All of this holds with any engine.
theorem parse_display [Engine] :
    (∀ {source : String} {p : Pattern}, parse source = .ok p →
      ∃ q, parse p.display = .ok q ∧ q.display = p.display ∧
        ∀ text, q.isMatch text = p.isMatch text) ∧
    (∀ {source other : String} {p q : Pattern}, parse source = .ok p → parse other = .ok q →
      p.display = q.display → ∀ text, p.isMatch text = q.isMatch text) ∧
    ∀ e : Expression,
      ∃ q, parse (ofExpression e).display = .ok q ∧ q.display = (ofExpression e).display ∧
        ∀ text : String, q.isMatch text = e.accepts text.toList := by
  refine ⟨fun {source p} h => ?_, fun {source other p q} hp hq hshown text => ?_, fun e => ?_⟩
  · exact ⟨p, parse_display_of_parse h, rfl, fun text => rfl⟩
  · have hfirst := parse_display_of_parse hp
    rw [hshown, parse_display_of_parse hq] at hfirst
    rw [Except.ok.inj hfirst]
  · exact ⟨ofExpression e, parse_display_ofExpression e, rfl, fun text => rfl⟩

end Pattern

open scoped Regex

-- Expressions that are what their sources spell, slashes included.
namespace Spelled

def regex (source : String) : Regex :=
  .all (source.toList.map .char)

def expression (source : String) (h : Regex.parse? source.toList = some (regex source)) :
    Expression where
  source
  accepts := (regex source).isMatch
  compiled := congrArg (Option.map Regex.isMatch) h

def version : Expression :=
  expression "/v/2" (by decide +kernel)

end Spelled

namespace Pattern

-- A slash at the front does not make a literal of a source that goes on after its last slash
-- with something else than letters.
theorem parse_display_version :
    parse "/v/2" = .ok ⟨Spelled.version.accepts, "//v/2/"⟩ ∧
      Spelled.version.accepts "api/v/2".toList = true ∧
      (∃ q, parse "//v/2/" = .ok q ∧ q.display = "//v/2/" ∧
        ∀ text : String, q.isMatch text = Spelled.version.accepts text.toList) ∧
      ∃ q, parse (ofExpression Spelled.version).display = .ok q ∧ q.display = "//v/2/" ∧
        ∀ text : String, q.isMatch text = Spelled.version.accepts text.toList := by
  have hbare : splitLiteral "/v/2".toList = none := by decide
  have hparse : parse "/v/2" = .ok ⟨Spelled.version.accepts, "//v/2/"⟩ := by
    rw [parse_of_splitLiteral_eq_none hbare]
    exact compile_eq_ok Spelled.version.compiled "//v/2/"
  exact ⟨hparse, by decide +kernel, parse_display.1 hparse,
    parse_display.2.2 Spelled.version⟩

end Pattern

end Rulebook
