import Rulebook.Proofs.Compile.Outcome
import Rulebook.Proofs.Json.Members
import Rulebook.Registry.Basic

namespace Rulebook.Registry

open Outcome

variable {registry next : Registry}

theorem resolve_add (registry : Registry) (key : String) (check : Extension) (name : String) :
    (registry.add key check).resolve name =
      if key = name then some (.extension check) else registry.resolve name := by
  simp only [resolve, add, builtin?, Members.get?_set]
  by_cases hkey : key = name
  · rw [if_pos hkey, if_pos hkey]
    rfl
  · rw [if_neg hkey, if_neg hkey]
    rfl

-- A registration says what is added and under which name, whatever the registry is.
theorem register_eq_ok_iff [Engine] {name : String} {check : CustomCheck} {message : Option String}
    {code : Option ErrorCode} :
    registry.register name check message code = (next, .ok ()) ↔
      Text.allBlank name = false ∧ ∃ m, matcher name check.kind = .ok m ∧
        next = registry.add name
          (.custom m (message.getD (defaultMessage name m)) (code.getD .invalid) check.params) := by
  unfold register
  cases hblank : Text.allBlank name with
  | true => simp
  | false =>
      simp only [Bool.false_eq_true, if_false, true_and]
      cases matcher name check.kind with
      | error error => simp
      | ok m => simp [eq_comm]

-- A check that is refused leaves the registry as it is, since both its name and its pattern
-- are looked at before it is added.
theorem register_of_error [Engine] {name : String} {check : CustomCheck} {message : Option String}
    {code : Option ErrorCode} {error : SetupError}
    (h : registry.register name check message code = (next, .error error)) : next = registry := by
  unfold register at h
  split at h
  · exact (congrArg Prod.fst h).symm
  · split at h
    · exact (congrArg Prod.fst h).symm
    · cases congrArg Prod.snd h

end Rulebook.Registry
