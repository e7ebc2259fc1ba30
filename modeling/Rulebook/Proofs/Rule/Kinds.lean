import Rulebook.Check.Basic

namespace Rulebook

namespace Verdict

theorem when_ne_nested (passed : Bool) (failure : Failure) (errors : List FieldError) :
    when passed failure ≠ nested errors := by
  cases passed <;> simp [when]

theorem ofOption_ne_nested (failure : Option Failure) (errors : List FieldError) :
    ofOption failure ≠ nested errors := by
  cases failure <;> simp [ofOption]

end Verdict

namespace Leaf

-- The catalogue looks at a value and at the record around it, and at nothing else.
theorem verdict_eq (leaf : Leaf) (value record root root' : Json) (path path' : String) :
    leaf.verdict value ⟨record, root, path⟩ = leaf.verdict value ⟨record, root', path'⟩ := by
  cases leaf <;> rfl

theorem verdict_ne_nested (leaf : Leaf) (value : Json) (context : Context)
    (errors : List FieldError) : leaf.verdict value context ≠ .nested errors := by
  cases leaf with
  | text name rules =>
      simp only [verdict, TextRules.verdict]
      split
      · simp
      · simp
      · exact Verdict.ofOption_ne_nested _ _
  | url allowEmpty =>
      simp only [verdict]
      split
      · simp
      · simp
      · exact Verdict.when_ne_nested _ _ _
  | password p =>
      simp only [verdict, Password.verdict]
      split
      · simp
      · exact Verdict.ofOption_ne_nested _ _
  | int limits =>
      simp only [verdict]
      split
      · split
        · exact Verdict.ofOption_ne_nested _ _
        · simp
      · simp
  | number limits =>
      simp only [verdict]
      split
      · exact Verdict.ofOption_ne_nested _ _
      · simp
  | _ => exact Verdict.when_ne_nested _ _ _

end Leaf

namespace Check

-- A check whose verdict is a failure of its own, if it is not a pass.
def IsOrdinary : Check → Prop
  | foreign .. => False
  | _ => True

-- A check of the catalogue.
def IsBuiltin : Check → Prop
  | custom .. | foreign .. => False
  | _ => True

theorem IsBuiltin.isOrdinary {check : Check} (h : check.IsBuiltin) : check.IsOrdinary := by
  cases check with
  | foreign name answer => exact False.elim h
  | _ => trivial

end Check

end Rulebook
