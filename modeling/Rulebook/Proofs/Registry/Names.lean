import Rulebook.Proofs.Json.Members
import Rulebook.Registry.Basic

namespace Rulebook.Registry

variable {registry : Registry}

theorem contains_iff {name : String} :
    registry.contains name = true ↔
      name ∈ registry.added.map (·.1) ∨
        registry.catalogue = true ∧ name ∈ Builtin.names.map (·.1) := by
  have hsome {α : Type} (members : List (String × α)) :
      (Members.get? name members).isSome = true ↔ name ∈ members.map (·.1) := by
    rw [Option.isSome_iff_ne_none, ne_eq, Members.get?_eq_none_iff, not_not]
  rw [contains, resolve, Option.isSome_or, Option.isSome_map, Option.isSome_map, Bool.or_eq_true,
    hsome, builtin?]
  cases registry.catalogue with
  | true => simp only [if_true, true_and, Builtin.named?, hsome]
  | false => simp

theorem mem_keys_iff {name : String} : name ∈ registry.keys ↔ registry.contains name = true := by
  rw [contains_iff, keys]
  cases registry.catalogue with
  | true =>
      simp only [if_true, true_and, List.mem_append, List.mem_filter, List.contains_eq_mem,
        Bool.not_eq_true', decide_eq_false_iff_not]
      tauto
  | false => simp

-- What is added under a name of the catalogue is not counted twice.
theorem nodup_keys (hadded : (registry.added.map (·.1)).Nodup) : registry.keys.Nodup := by
  have hbuiltins : (if registry.catalogue then Builtin.names.map (·.1) else []).Nodup := by
    cases registry.catalogue <;> decide
  refine List.nodup_append'.mpr ⟨hbuiltins, hadded.filter _, ?_⟩
  intro name hbuiltin hother
  simpa [hbuiltin] using (List.mem_filter.mp hother).2

theorem length_names (registry : Registry) : registry.names.length = registry.size :=
  List.length_mergeSort _

theorem mem_names_iff {name : String} :
    name ∈ registry.names ↔ registry.contains name = true :=
  List.mem_mergeSort.trans mem_keys_iff

theorem names_ascending (hadded : (registry.added.map (·.1)).Nodup) :
    registry.names.Pairwise (· < ·) := by
  have hnodup : registry.names.Nodup :=
    (List.mergeSort_perm _ _).nodup_iff.mpr (nodup_keys hadded)
  have hsorted : registry.names.Pairwise fun a b => decide (a ≤ b) = true := by
    refine List.pairwise_mergeSort (fun a b c hab hbc => ?_) (fun a b => ?_) _
    · exact decide_eq_true (String.le_trans (of_decide_eq_true hab) (of_decide_eq_true hbc))
    · simpa using String.le_total a b
  refine (hsorted.and hnodup).imp fun h => ?_
  exact Std.lt_of_le_of_ne (of_decide_eq_true h.1) h.2

end Rulebook.Registry
