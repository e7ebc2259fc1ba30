import Rulebook.Proofs.Text.Cut
import Rulebook.Regex.Pattern

namespace Rulebook

namespace Pattern

-- A source that stands between slashes, with letters after the second one.
def Delimits (body flags source : List Char) : Prop :=
  source = '/' :: body ++ '/' :: flags ∧ flags.all Char.isAlpha = true

theorem splitLiteral_eq_some_iff {source body flags : List Char} :
    splitLiteral source = some (body, flags) ↔ Delimits body flags source := by
  constructor
  · intro h
    unfold splitLiteral at h
    split at h
    · obtain ⟨hcut, hletters⟩ := Option.filter_eq_some_iff.mp h
      obtain ⟨rfl, -⟩ := Text.eq_of_cutLast_eq_some hcut
      exact ⟨rfl, hletters⟩
    · cases h
  · rintro ⟨rfl, hletters⟩
    have hslash : '/' ∉ flags := fun hmem => by
      cases List.all_eq_true.mp hletters '/' hmem
    rw [List.cons_append, splitLiteral, Text.cutLast_append_cons hslash]
    exact Option.filter_eq_some_iff.mpr ⟨rfl, hletters⟩

theorem splitLiteral_of_notMem {source : List Char} (h : '/' ∉ source) :
    splitLiteral source = none := by
  unfold splitLiteral
  split
  · exact absurd List.mem_cons_self h
  · rfl

theorem compile_eq_ok [Engine] {source : List Char} {accepts : List Char → Bool}
    (h : Engine.compile? source = some accepts) (display : String) :
    compile source display = .ok ⟨accepts, display⟩ := by
  rw [compile, h]

theorem parse_of_splitLiteral_eq_none [Engine] {source : String}
    (h : splitLiteral source.toList = none) :
    parse source = compile source.toList (slashed source.toList) := by
  rw [parse, h]

theorem parse_cases [Engine] {source : String} (hbare : splitLiteral source.toList = none) :
    (∃ accepts, Engine.compile? source.toList = some accepts ∧
        parse source = .ok ⟨accepts, slashed source.toList⟩) ∨
      (Engine.compile? source.toList = none ∧ parse source = .error .malformed) := by
  rw [parse_of_splitLiteral_eq_none hbare, compile]
  cases Engine.compile? source.toList with
  | none => exact .inr ⟨rfl, rfl⟩
  | some accepts => exact .inl ⟨accepts, rfl, rfl⟩

-- A bare source is the expression itself.
theorem parse_of_bare [Engine] {source : String}
    (h : ∀ body flags, ¬Delimits body flags source.toList) :
    parse source = compile source.toList (slashed source.toList) := by
  apply parse_of_splitLiteral_eq_none
  rw [Option.eq_none_iff_forall_ne_some]
  exact fun (body, flags) hsplit => h body flags (splitLiteral_eq_some_iff.mp hsplit)

-- Of any other only what stands between the slashes is.
theorem parse_of_delimits [Engine] {source : String} {body flags : List Char}
    (h : Delimits body flags source.toList) :
    parse source = (do compile (← withFlags body flags) source) := by
  rw [parse, splitLiteral_eq_some_iff.mpr h]

end Pattern

end Rulebook
