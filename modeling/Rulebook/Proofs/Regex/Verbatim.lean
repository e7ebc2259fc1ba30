import Mathlib.Data.List.Infix
import Rulebook.Proofs.Regex.Literal
import Rulebook.Proofs.Regex.Spans
import Rulebook.Regex.Engine

namespace Rulebook

namespace Regex

-- The characters that stand for something else than themselves.
def specials : List Char :=
  ['(', ')', '|', '[', '?', '*', '+', '{', '\\', '.', '^', '$']

def isSpecial (c : Char) : Bool :=
  specials.contains c

theorem isSpecial_of_isDigit {c : Char} (h : c.isDigit = true) : isSpecial c = false := by
  rw [isSpecial, List.contains_eq_mem, decide_eq_false_iff_not]
  intro hmem
  have hnone : specials.all (!·.isDigit) = true := rfl
  simpa [h] using List.all_eq_true.mp hnone c hmem

variable {cs text : List Char} {before after : Option Char}

theorem andThen_empty (e : Regex) : e.andThen empty = e := by
  cases e <;> rfl

namespace Term

-- Characters as they are written.
def verbatim (cs : List Char) : List Term :=
  cs.map fun c => .chars (.single c)

theorem regex_ofItems (items : List Term) : (ofItems items).regex = regexSeq items := by
  unfold ofItems
  split
  · rw [regex, regexSeq]
  · rw [regexSeq, regexSeq, andThen_empty]
  · rw [regex]

theorem regexSeq_verbatim_cons (c : Char) (cs : List Char) :
    regexSeq (verbatim (c :: cs)) = (char c).andThen (regexSeq (verbatim cs)) := by
  rw [verbatim, List.map_cons, regexSeq, regex]
  rfl

theorem settled_regexSeq_verbatim (cs : List Char) :
    (regexSeq (verbatim cs)).settled = true := by
  induction cs with
  | nil => rfl
  | cons c cs ih =>
      rw [regexSeq_verbatim_cons]
      exact settled_andThen rfl ih

theorem spans_regexSeq_verbatim :
    (regexSeq (verbatim cs)).Spans before after text ↔ text = cs := by
  induction cs generalizing before text with
  | nil => rfl
  | cons c cs ih =>
      rw [regexSeq_verbatim_cons, spans_andThen, Spans]
      simp only [spans_char, ih]
      constructor
      · rintro ⟨x, y, rfl, rfl, rfl⟩
        rfl
      · rintro rfl
        exact ⟨[c], cs, rfl, rfl, rfl⟩

theorem depth_ofItems_verbatim_le (cs : List Char) : (ofItems (verbatim cs)).depth ≤ 1 := by
  have hall : depthAll (verbatim cs) = 0 := by
    induction cs with
    | nil => rw [verbatim, List.map_nil, depthAll]
    | cons c cs ih =>
        rw [verbatim, List.map_cons, depthAll, depth, Nat.zero_max]
        exact ih
  unfold ofItems
  split
  · simp [depth]
  · next item heq =>
      rw [heq] at hall
      rw [depthAll, depthAll, Nat.max_zero] at hall
      omega
  · rw [depth, hall]

theorem estimate_ofItems_verbatim_le (cs : List Char) :
    (ofItems (verbatim cs)).estimate ≤ 2816 * cs.length + 128 := by
  have hall : estimateAll (verbatim cs) = 2816 * cs.length := by
    induction cs with
    | nil => rw [verbatim, List.map_nil, estimateAll]; rfl
    | cons c cs ih =>
        rw [verbatim, List.map_cons, estimateAll, estimate]
        have hrest : estimateAll (cs.map fun c => .chars (.single c)) = 2816 * cs.length := ih
        rw [hrest, CharClass.single, CharClass.weight, List.length_cons, rangeBytes, stepBytes]
        omega
  unfold ofItems
  split
  · simp [estimate, stepBytes]
  · next item heq =>
      rw [heq, estimateAll, estimateAll] at hall
      omega
  · rw [estimate, hall, stepBytes]

end Term

namespace Parser

theorem element_of_not_isSpecial {c : Char} (h : isSpecial c = false) (state : State)
    (cs : List Char) :
    element state (c :: cs) = some (state.push (ofChar state.inner.flags c), cs) := by
  unfold element
  split
  all_goals simp_all [isSpecial, specials]

-- Every character becomes an item of its own.
theorem elements_of_not_isSpecial (h : ∀ c ∈ cs, isSpecial c = false) (items : List Term) :
    elements cs.length { State.start with inner.items := items } cs =
      some { State.start with inner.items := (Term.verbatim cs).reverse ++ items } := by
  induction cs generalizing items with
  | nil => rfl
  | cons c cs ih =>
      rw [List.forall_mem_cons] at h
      have helement := element_of_not_isSpecial h.1 { State.start with inner.items := items } cs
      have hrest := ih h.2 (.chars (.single c) :: items)
      have hitems : (Term.verbatim (c :: cs)).reverse ++ items =
          (Term.verbatim cs).reverse ++ .chars (.single c) :: items := by
        simp [Term.verbatim]
      rw [hitems, ← hrest, List.length_cons]
      show (element { State.start with inner.items := items } (c :: cs)).bind
        (fun next => elements cs.length next.1 next.2) = _
      rw [helement]
      rfl

end Parser

theorem parseTerm?_of_not_isSpecial (h : ∀ c ∈ cs, isSpecial c = false) :
    parseTerm? cs = some (.ofItems (Term.verbatim cs)) := by
  have helements := Parser.elements_of_not_isSpecial h []
  rw [parseTerm?, show Parser.State.start = { Parser.State.start with inner.items := [] } from rfl,
    helements]
  simp [Parser.State.start, Parser.Level.close, Parser.Level.branch, Term.ofBranches]

-- Without special characters only the length of an expression can be too great.
theorem isSome_parse?_of_not_isSpecial (h : ∀ c ∈ cs, isSpecial c = false)
    (hlength : cs.length ≤ 3000) : (parse? cs).isSome = true := by
  have hdepth := Term.depth_ofItems_verbatim_le cs
  have hestimate := Term.estimate_ofItems_verbatim_le cs
  have hallowed : (Term.ofItems (Term.verbatim cs)).depth ≤ Term.maxDepth := by
    rw [Term.maxDepth]
    omega
  have hfits : (Term.ofItems (Term.verbatim cs)).fits = true := by
    rw [Term.fits, Bool.or_eq_true, decide_eq_true_eq]
    left
    rw [Term.stepBytes, Automaton.Room.limit]
    omega
  rw [parse?, parseTerm?_of_not_isSpecial h]
  simp [hallowed, hfits]

-- Such an expression matches exactly the texts that it occurs in.
theorem isMatch_of_not_isSpecial (h : ∀ c ∈ cs, isSpecial c = false) {e : Regex}
    (he : parse? cs = some e) : e.isMatch text = true ↔ cs <:+: text := by
  obtain rfl : Term.regexSeq (Term.verbatim cs) = e := by
    rw [parse?, parseTerm?_of_not_isSpecial h, Option.bind_eq_bind, Option.bind_some,
      Term.regex_ofItems] at he
    split at he
    · exact Option.some.inj he
    · cases he
  rw [isMatch_iff (Term.settled_regexSeq_verbatim cs)]
  constructor
  · rintro ⟨before, y, rfl, x, after, rfl, hspans⟩
    obtain rfl := Term.spans_regexSeq_verbatim.mp hspans
    exact ⟨before, after, List.append_assoc before x after⟩
  · rintro ⟨before, after, rfl⟩
    exact ⟨before, cs ++ after, List.append_assoc before cs after, cs, after, rfl,
      Term.spans_regexSeq_verbatim.mpr rfl⟩

end Regex

-- An engine for which characters that are not special stand for themselves: without special
-- characters a source that is not too long is an expression, and one that is an expression
-- matches exactly the texts that it occurs in.
class Engine.Verbatim [Engine] : Prop where
  isSome_compile? {source : List Char} (h : ∀ c ∈ source, Regex.isSpecial c = false)
    (hlength : source.length ≤ 3000) : (Engine.compile? source).isSome = true
  accepts_iff {source : List Char} (h : ∀ c ∈ source, Regex.isSpecial c = false)
    {accepts : List Char → Bool} (haccepts : Engine.compile? source = some accepts)
    (text : List Char) : accepts text = true ↔ source <:+: text

open scoped Regex

instance : Engine.Verbatim where
  isSome_compile? h hlength := by
    rw [Engine.compile?, Regex.engine, Option.isSome_map]
    exact Regex.isSome_parse?_of_not_isSpecial h hlength
  accepts_iff h accepts haccepts text := by
    obtain ⟨e, he, rfl⟩ := Option.map_eq_some_iff.mp haccepts
    exact Regex.isMatch_of_not_isSpecial h he

end Rulebook
