import Rulebook.Compile.Parts

namespace Rulebook

open Json (depthMembers depthItems)

-- A bound on the rules that can be nested in a rule: two for each level of its
-- options, since an array may put a descriptor of its own around the schema of its
-- elements.
def Descriptor.weight (kind : String) (options : List (String × Json)) : Nat :=
  2 * depthMembers options + if kind = "array" then 1 else 0

def Spec.weight : Spec → Nat
  | .descriptor d => Descriptor.weight d.kind d.options
  | _ => 0

namespace Json

theorem depthMembers_filter_le (keep : String × Json → Bool) (members : List (String × Json)) :
    depthMembers (members.filter keep) ≤ depthMembers members := by
  induction members with
  | nil => simp
  | cons member rest ih =>
      obtain ⟨name, value⟩ := member
      simp only [List.filter_cons]
      split
      · simp only [depthMembers]
        omega
      · simp only [depthMembers]
        omega

theorem depth_le_of_present {name : String} {members : List (String × Json)} {value : Json}
    (h : present? name members = some value) : value.depth ≤ depthMembers members := by
  unfold present? at h
  obtain ⟨hget, -⟩ := Option.filter_eq_some_iff.1 h
  exact depth_le_depthMembers hget

end Json

theorem Descriptor.depth_options {field : String} {members : List (String × Json)}
    {d : Descriptor} (h : Descriptor.ofMembers field members = .ok d) :
    depthMembers d.options ≤ depthMembers members := by
  simp only [Descriptor.ofMembers, bind, Except.bind] at h
  split at h
  · simp at h
  · split at h
    · simp at h
    · cases h
      exact Json.depthMembers_filter_le _ _

-- The options of a rule are less deep than the rule.
theorem Spec.weight_le {field : String} {value : Json} {spec : Spec}
    (h : Spec.ofJson field value = .ok spec) : spec.weight ≤ 2 * value.depth - 1 := by
  cases value with
  | obj members =>
      simp only [Spec.ofJson, Except.map] at h
      split at h
      · simp at h
      · rename_i d hd
        cases h
        have hdepth := Descriptor.depth_options hd
        simp only [Spec.weight, Descriptor.weight, Json.depth]
        split <;> omega
  | str source =>
      cases h
      exact Nat.zero_le _
  | arr allowed =>
      cases h
      exact Nat.zero_le _
  | null => simp [Spec.ofJson] at h
  | bool b => simp [Spec.ofJson] at h
  | num n => simp [Spec.ofJson] at h

theorem Schema.weight_le {members : List (String × Json)} {fields : List (String × Spec)}
    (h : Schema.ofMembers members = .ok fields) {name : String} {spec : Spec}
    (hmem : (name, spec) ∈ fields) : spec.weight ≤ 2 * depthMembers members - 1 := by
  induction members generalizing fields with
  | nil =>
      cases h
      simp at hmem
  | cons member rest ih =>
      obtain ⟨key, value⟩ := member
      simp only [Schema.ofMembers, bind, Except.bind] at h
      split at h
      · simp at h
      · rename_i first hfirst
        split at h
        · simp at h
        · rename_i others hothers
          cases h
          simp only [depthMembers]
          rcases List.mem_cons.1 hmem with heq | hmem
          · cases heq
            have := Spec.weight_le hfirst
            omega
          · have := ih hothers hmem
            omega

-- An entry of the catalogue is found under its own names only.
theorem Registry.named_of_resolve {registry : Registry} {name : String} {check : Builtin}
    (h : registry.resolve name = some (.builtin check)) : Builtin.named? name = some check := by
  unfold Registry.resolve at h
  cases hadded : Members.get? name registry.added with
  | some added => simp [hadded] at h
  | none =>
      simp only [hadded, Option.map_none, Option.none_or, Option.map_eq_some_iff] at h
      obtain ⟨found, hfound, heq⟩ := h
      cases heq
      unfold Registry.builtin? at hfound
      split at hfound
      · exact hfound
      · simp at hfound

theorem Builtin.eq_array_of_named {name : String} (h : Builtin.named? name = some .array) :
    name = "array" := by
  have hmem := Members.mem_of_get? h
  simp only [Builtin.names, List.mem_cons, Prod.mk.injEq, List.not_mem_nil, reduceCtorEq,
    and_false, and_true, false_or, or_false] at hmem
  exact hmem

theorem Builtin.objectRule_weight {field : String} {schema : Option Json} {spec : Spec}
    (h : Spec.ofJson field (objectRule schema) = .ok spec) :
    spec.weight = 2 * (schema.map Json.depth).getD 0 := by
  have hblank : Text.allBlank "object" = false := by decide
  have htrim : Text.trim "object" = "object" := by decide
  cases schema with
  | none =>
      simp [Spec.ofJson, objectRule, Descriptor.ofMembers, Descriptor.readKind,
        Descriptor.readRequired, Members.get?, hblank, htrim, bind, Except.bind, Except.map] at h
      subst h
      simp [Spec.weight, Descriptor.weight, Descriptor.isOptionName, depthMembers]
  | some schema =>
      simp [Spec.ofJson, objectRule, Descriptor.ofMembers, Descriptor.readKind,
        Descriptor.readRequired, Members.get?, hblank, htrim, bind, Except.bind, Except.map] at h
      subst h
      simp [Spec.weight, Descriptor.weight, Descriptor.isOptionName, depthMembers]

private theorem object_part_lt {args : Args} {parts : List (String × Spec)}
    (hparts : Builtin.object.parts args = .ok parts) {name : String} {spec : Spec}
    (hmem : (name, spec) ∈ parts) : spec.weight < 2 * depthMembers args.options := by
  simp only [Builtin.parts] at hparts
  split at hparts
  · rename_i rule hrule
    have hdepth := Json.depth_le_of_present hrule
    cases rule with
    | obj members =>
        simp only [Schema.ofJson, Except.map] at hparts
        split at hparts
        · simp at hparts
        · rename_i schema hschema
          split at hschema
          · simp at hschema
          · rename_i fields hfields
            cases hschema
            cases hparts
            have hweight := Schema.weight_le hfields hmem
            simp only [Json.depth] at hdepth
            omega
    | null | bool b | num n | str s | arr items => simp [Schema.ofJson, Except.map] at hparts
  · cases hparts
    simp at hmem

private theorem element_weight_le {field : String} {itemType rule : Option Json}
    {element : Json} {spec : Spec} {bound : Nat}
    (hitem : ∀ value, itemType = some value → value.depth ≤ bound)
    (hrule : ∀ value, rule = some value → value.depth ≤ bound)
    (helement : Builtin.elementRule itemType rule = some element)
    (hspec : Spec.ofJson field element = .ok spec) : spec.weight ≤ 2 * bound := by
  rcases Builtin.elementRule_cases helement with h | h | rfl
  · have hdepth := hitem element h
    have hweight := Spec.weight_le hspec
    omega
  · have hdepth := hrule element h
    have hweight := Spec.weight_le hspec
    omega
  · rw [Builtin.objectRule_weight hspec]
    cases rule with
    | none => simp
    | some value =>
        have hdepth := hrule value rfl
        simp only [Option.map_some, Option.getD_some]
        omega

private theorem array_part_le {args : Args} {parts : List (String × Spec)}
    (hparts : Builtin.array.parts args = .ok parts) {name : String} {spec : Spec}
    (hmem : (name, spec) ∈ parts) : spec.weight ≤ 2 * depthMembers args.options := by
  simp only [Builtin.parts] at hparts
  split at hparts
  · rename_i element helement
    simp only [Except.map] at hparts
    split at hparts
    · simp at hparts
    · rename_i read hread
      cases hparts
      simp only [List.mem_singleton, Prod.mk.injEq] at hmem
      obtain ⟨-, rfl⟩ := hmem
      exact element_weight_le (fun _ h => Json.depth_le_of_present h)
        (fun _ h => Json.depth_le_of_present h) helement hread
  · cases hparts
    simp at hmem

-- Every part of a check is lighter than the rule of the check.
theorem Registry.weight_part_lt {registry : Registry} {args : Args} {entry : Entry}
    (hentry : registry.resolve args.rule = some entry) {parts : List (String × Spec)}
    (hparts : entry.parts args = .ok parts) {name : String} {spec : Spec}
    (hmem : (name, spec) ∈ parts) : spec.weight < Descriptor.weight args.rule args.options := by
  unfold Descriptor.weight
  cases entry with
  | extension check =>
      cases hparts
      simp at hmem
  | builtin check =>
      cases check with
      | object =>
          have hlt := object_part_lt hparts hmem
          omega
      | array =>
          have hname := Builtin.eq_array_of_named (named_of_resolve hentry)
          have hle := array_part_le hparts hmem
          simp only [hname, if_true]
          omega
      | _ =>
          cases hparts
          simp at hmem

end Rulebook
