import Rulebook.Proofs.Compile.Induction
import Rulebook.Proofs.Number.Plain
import Rulebook.Proofs.Validator.Report
import Rulebook.Regex.Engine

namespace Rulebook

open Outcome

theorem Json.scalarText_num_eq_iff {a b : Number} :
    (Json.num a).scalarText = (Json.num b).scalarText ↔ a.value = b.value := by
  rw [scalarText, scalarText, Option.some_inj, String.ofList_inj, Number.plain_eq_iff]

-- The checks that look at a value only through its text.
def Check.ReadsText : Check → Prop
  | leaf .alpha | leaf (.numeric _) | leaf (.captcha _) | leaf .phone => True
  | custom _ (.pattern _) _ _ _ => True
  | _ => False

def Entry.ReadsText : Entry → Prop
  | .builtin .alpha | .builtin .numeric | .builtin .captcha | .builtin .phone => True
  | .extension (.custom (.pattern _) _ _ _) => True
  | _ => False

theorem Check.ReadsText.check_eq {check : Check} (hcheck : check.ReadsText) {value other : Json}
    (h : value.scalarText = other.scalarText) (run : Run) (root : Json) (name path : String)
    (record record' : Json) :
    run.check name value record path check =
      { run with root }.check name other record' path check := by
  cases check with
  | leaf leaf =>
      cases leaf with
      | alpha | phone =>
          simp only [Run.check, Leaf.verdict, h]
          rfl
      | numeric count | captcha count =>
          simp only [Run.check, Leaf.verdict, Leaf.digitsOf, h]
          rfl
      | _ => exact False.elim hcheck
  | custom own matcher options message code =>
      cases matcher with
      | predicate holds => exact False.elim hcheck
      | pattern p =>
          simp only [Run.check, h]
          rfl
  | foreign | object | array => exact False.elim hcheck

theorem Entry.ReadsText.build [Engine] {entry : Entry} (hentry : entry.ReadsText) {args : Args}
    {parts : List (String × Rule)} {check : Check} (h : entry.build args parts = .ok check) :
    check.ReadsText := by
  cases entry with
  | builtin builtin =>
      cases builtin with
      | alpha | phone =>
          cases h
          trivial
      | numeric | captcha =>
          obtain ⟨count, -, h⟩ := bind_eq_ok_iff.mp h
          cases h
          trivial
      | _ => exact False.elim hentry
  | extension extension =>
      cases extension with
      | foreign params build => exact False.elim hentry
      | custom matcher template code params =>
          cases matcher with
          | predicate holds => exact False.elim hentry
          | pattern p =>
              cases h
              trivial

-- Numbers have one text if and only if they have one value. What the checks of texts say of a
-- number is hence a matter of its value, wherever it stands.
theorem Registry.builds_readsText [Engine] (a b : Number) :
    (a.plain = b.plain ↔ a.value = b.value) ∧
      ∀ {registry : Registry} {args : Args} {entry : Entry} {parts : List (String × Rule)}
        {check : Check}, a.value = b.value → registry.resolve args.rule = some entry →
        entry.ReadsText → registry.Builds args parts check →
        ∀ (run : Run) (root : Json) (name path : String) (record record' : Json),
          run.check name (.num a) record path check =
            { run with root }.check name (.num b) record' path check := by
  refine ⟨Number.plain_eq_iff, ?_⟩
  intro registry args entry parts check hvalue hentry htext hbuilds run root name path record
    record'
  obtain ⟨_, hresolved, hbuild⟩ := hbuilds
  obtain rfl := Option.some.inj (hentry.symm.trans hresolved)
  exact (htext.build hbuild).check_eq (Json.scalarText_num_eq_iff.mpr hvalue) run root name path
    record record'

-- The number 2^63 as an integer and as a float, and the next float.
namespace TwoPow63

def int : Number := .int 9223372036854775808 (by decide)

def float : Number := .float (Binary64.ofInt 9223372036854775808 (by decide))

def next : Number := .float (Binary64.ofInt 9223372036854777856 (by decide))

def args : Args :=
  { rule := "numeric", field := "n", options := [("len", .num (.int 19 (by decide)))] }

def run : Run :=
  ({} : Validator).run .null []

end TwoPow63

open scoped Regex

theorem Registry.builds_readsText_twoPow63 :
    (TwoPow63.int.plain = TwoPow63.float.plain ∧ TwoPow63.int.plain ≠ TwoPow63.next.plain) ∧
      (TwoPow63.int.value = TwoPow63.float.value ∧
        Registry.resolve {} TwoPow63.args.rule = some (.builtin .numeric) ∧
        Entry.ReadsText (.builtin .numeric) ∧
        Registry.Builds {} TwoPow63.args [] (.leaf (.numeric 19))) ∧
      TwoPow63.run.check "numeric" (.num TwoPow63.int) .null "n" (.leaf (.numeric 19)) = none ∧
      TwoPow63.run.check "numeric" (.num TwoPow63.float) .null "n" (.leaf (.numeric 19)) =
        none := by
  have hsame : TwoPow63.int.value = TwoPow63.float.value := by
    rw [Number.value_inj]
    decide +kernel
  have hother : TwoPow63.int.value ≠ TwoPow63.next.value := by
    rw [Ne, Number.value_inj]
    decide +kernel
  have hentry : Registry.resolve {} TwoPow63.args.rule = some (.builtin .numeric) := rfl
  have hbuilds : Registry.Builds {} TwoPow63.args [] (.leaf (.numeric 19)) := ⟨_, hentry, rfl⟩
  have hpass : TwoPow63.run.check "numeric" (.num TwoPow63.int) .null "n"
      (.leaf (.numeric 19)) = none := by
    have hdigits : Leaf.digitsOf 19 (.num TwoPow63.int) = true := by decide +kernel
    rw [Run.check, Leaf.verdict, hdigits]
    rfl
  obtain ⟨htext, hcheck⟩ := builds_readsText TwoPow63.int TwoPow63.float
  refine ⟨⟨htext.mpr hsame, ?_⟩, ⟨hsame, hentry, trivial, hbuilds⟩, hpass, ?_⟩
  · exact fun h => hother ((builds_readsText TwoPow63.int TwoPow63.next).1.mp h)
  · rw [← hpass]
    exact (hcheck hsame hentry trivial hbuilds TwoPow63.run .null "numeric" "n" .null .null).symm

end Rulebook
