import Rulebook.Proofs.Compile.Induction
import Rulebook.Proofs.Registry.Registration

namespace Rulebook

namespace Verdict

theorem when_eq_pass_iff {passed : Bool} {failure : Failure} :
    when passed failure = pass ↔ passed = true := by
  cases passed <;> simp [when]

end Verdict

namespace CustomCheck

-- The check that is built of a description: it decides as the description says, and its
-- message has the texts of the options in place.
def built (name : String) (m : Matcher) (message : Option String) (code : Option ErrorCode)
    (options : List (String × Json)) : Check :=
  .custom name m options
    (Extension.describe (message.getD (Registry.defaultMessage name m)) options)
    (code.getD .invalid)

end CustomCheck

namespace Registry

variable {registry next : Registry} {name : String} {check : CustomCheck}
  {message : Option String} {code : Option ErrorCode}

theorem matcher_pattern [Engine] {source : String} {p : Pattern} (hp : Pattern.parse source = .ok p)
    (name : String) : matcher name (.pattern source) = .ok (.pattern p) := by
  rw [matcher, hp]

-- Whatever the options are, what is built under the name is the check that was described.
theorem builds_register_iff [Engine] {m : Matcher} (hmatcher : matcher name check.kind = .ok m)
    (h : registry.register name check message code = (next, .ok ())) {args : Args}
    (hargs : args.rule = name) {rules : List (String × Rule)} {built : Check} :
    next.Builds args rules built ↔
      built = CustomCheck.built name m message code args.options := by
  obtain ⟨-, other, hother, rfl⟩ := register_eq_ok_iff.mp h
  obtain rfl : m = other := Except.ok.inj (hmatcher.symm.trans hother)
  rw [Builds, resolve_add, if_pos hargs.symm]
  constructor
  · rintro ⟨entry, hentry, hbuild⟩
    cases hentry
    cases hbuild
    rw [CustomCheck.built, hargs]
  · rintro rfl
    refine ⟨_, rfl, ?_⟩
    rw [CustomCheck.built, ← hargs]
    rfl

end Registry

end Rulebook
