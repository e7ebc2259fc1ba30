import Rulebook.Proofs.Run.Consulted
import Rulebook.Proofs.Run.Simulation

namespace Rulebook

-- An error without its words.
def FieldError.wordless (e : FieldError) : FieldError :=
  ⟨"", e.field, ""⟩

namespace Inquiry

-- An inquiry that goes on alike after errors that differ in their words only. It may look at
-- their paths, and at how many there are.
def IgnoresWords {ρ α : Type} : Inquiry ρ α → Prop
  | answer _ => True
  | object _ _ next | items _ _ next =>
      (∀ errors others : List FieldError,
        errors.map FieldError.wordless = others.map FieldError.wordless →
          next errors = next others) ∧
        ∀ errors, (next errors).IgnoresWords

end Inquiry

-- A check without words of its own making that does not look at those of others.
def Check.IgnoresWords : Check → Prop
  | custom _ (.predicate holds) options _ _ =>
      ∀ value context, (holds value options context).IgnoresWords
  | foreign .. => False
  | _ => True

namespace Run

-- The run that reports no words.
def wordless (run : Run) : Run :=
  { run with resolve := fun path check failure => (run.resolve path check failure).wordless }

end Run

end Rulebook
