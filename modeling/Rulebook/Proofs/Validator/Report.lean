import Rulebook.Proofs.Compile.Provenance
import Rulebook.Proofs.Run.Agreement
import Rulebook.Proofs.Run.Consulted
import Rulebook.Regex.Engine
import Rulebook.Validator.Basic

namespace Rulebook

namespace RuleSet

-- The fields of a record under their rules, in the order of their declaration.
def places (rules : RuleSet) (data : Json) : List Place :=
  rules.fields.map fun (name, rule) => ⟨rule, data.field name, data, name⟩

end RuleSet

namespace Registry

-- Compiled rules hold nothing but what the catalogue and the users of a registry describe.
theorem Registered.every_isOrdinary [Engine] {registry : Registry} (hregistry : registry.Registered)
    {schema : Schema} {rules : RuleSet} (hrules : registry.compile schema = .ok rules)
    (data : Json) : ∀ place ∈ rules.places data, place.rule.Every Check.IsOrdinary := by
  intro place hplace
  obtain ⟨field, hfield, rfl⟩ := List.mem_map.mp hplace
  exact compile_every (fun _ _ _ hbuilt => hbuilt.isOrdinary hregistry) hrules hfield

end Registry

namespace Validator

-- The errors that a validation reports, none if it reports nothing.
def reported (validator : Validator) (data : Json) (rules : RuleSet) (overrides : Texts) :
    List FieldError :=
  (validator.validateCompiled data rules overrides).elim [] ErrorList.toList

variable {validator : Validator} {data : Json} {rules : RuleSet} {overrides : Texts}

theorem validateCompiled_eq :
    validator.validateCompiled data rules overrides =
      ErrorList.ofList? ((rules.places data).flatMap (validator.run data overrides).place) := by
  simp only [validateCompiled, Run.fields_eq, RuleSet.places, List.flatMap_map, Run.fieldPath, run]

theorem reported_eq :
    validator.reported data rules overrides =
      (rules.places data).flatMap (validator.run data overrides).place := by
  rw [reported, validateCompiled_eq]
  cases (rules.places data).flatMap (validator.run data overrides).place <;> rfl

theorem validateCompiled_eq_none_iff :
    validator.validateCompiled data rules overrides = none ↔
      validator.reported data rules overrides = [] := by
  rw [reported_eq, validateCompiled_eq]
  cases (rules.places data).flatMap (validator.run data overrides).place <;>
    simp [ErrorList.ofList?]

-- What the validator makes of a failure at a place.
def setting (validator : Validator) (data : Json) (overrides : Texts) : Setting FieldError :=
  { run := validator.run data overrides
    report := fun place check failure =>
      validator.config.resolve overrides place.path check failure }

-- What the reference says of places is what a check of a user is handed that asks about them.
theorem contributeAll_handed {places : List Place}
    (hplaces : ∀ place ∈ places, place.rule.Every Check.IsOrdinary) {errors : List FieldError}
    (h : ContributeAll (validator.setting data overrides) places errors) :
    places.flatMap (validator.run data overrides).place = errors := by
  have hrun : ContributeAll (validator.run data overrides).setting places errors := h
  exact hrun.eq_run hplaces

theorem contributeAll_iff [Engine] {registry : Registry} (hregistry : registry.Registered)
    {schema : Schema} (hrules : registry.compile schema = .ok rules) {errors : List FieldError} :
    ContributeAll (validator.setting data overrides) (rules.places data) errors ↔
      errors = validator.reported data rules overrides := by
  have hsound {others : List FieldError}
      (h : ContributeAll (validator.setting data overrides) (rules.places data) others) :
      validator.reported data rules overrides = others := by
    rw [reported_eq]
    exact contributeAll_handed (hregistry.every_isOrdinary hrules data) h
  refine ⟨fun h => (hsound h).symm, ?_⟩
  rintro rfl
  have hplaces : ∀ place ∈ rules.places data,
      ∃ others, Contributes (validator.setting data overrides) place others :=
    fun place _ => exists_contributes _ place
  obtain ⟨others, h⟩ := exists_contributeAll hplaces
  rw [hsound h]
  exact h

-- A validator reports what the reference says: the contributions of the fields in the
-- order of their declaration. It reports nothing exactly if every place that it can
-- come to, at any depth, is skipped or passes all of its checks. A predicate that has something
-- else validated on its way is handed what the reference says of that.
theorem validateCompiled_reference [Engine] {registry : Registry} (hregistry : registry.Registered)
    {schema : Schema} {rules : RuleSet} (hrules : registry.compile schema = .ok rules)
    (validator : Validator) (data : Json) (overrides : Texts) :
    ∃ errors,
      (∀ others, ContributeAll (validator.setting data overrides) (rules.places data) others ↔
        others = errors) ∧
      (validator.validateCompiled data rules overrides).elim [] ErrorList.toList = errors ∧
      (validator.validateCompiled data rules overrides = none ↔ errors = []) ∧
      (validator.validateCompiled data rules overrides = none ↔
        ∀ place ∈ rules.places data, ∀ final,
          Reaches validator.config.indexArrayPaths place final →
            final.Quiet (validator.run data overrides)) ∧
      (∀ path fields value next others,
        (∀ field ∈ fields, field.2.Every Check.IsOrdinary) →
        ContributeAll (validator.setting data overrides)
          ((validator.run data overrides).fieldPlaces path fields value) others →
        (validator.run data overrides).passes path (.object fields value next) =
          (validator.run data overrides).passes path (next others)) ∧
      ∀ path rule items next others, rule.Every Check.IsOrdinary →
        ContributeAll (validator.setting data overrides)
          ((validator.run data overrides).itemPlaces path rule items) others →
        (validator.run data overrides).passes path (.items rule items next) =
          (validator.run data overrides).passes path (next others) := by
  refine ⟨_, fun others => contributeAll_iff hregistry hrules, rfl,
    validateCompiled_eq_none_iff, ?_, ?_, ?_⟩
  · rw [validateCompiled_eq_none_iff, eq_comm, ← contributeAll_iff hregistry hrules,
      contributeAll_nil_iff]
    exact forall₂_congr fun place _ => contributes_nil_iff_quiet
  · intro path fields value next others hfields hothers
    rw [Run.passes_object, contributeAll_handed ?_ hothers]
    intro place hplace
    obtain ⟨field, hfield, rfl⟩ := List.mem_map.mp hplace
    exact hfields field hfield
  · intro path rule items next others hrule hothers
    rw [Run.passes_items, contributeAll_handed ?_ hothers]
    intro place hplace
    obtain ⟨item, -, rfl⟩ := List.mem_map.mp hplace
    exact hrule

end Validator

-- A list of users whose names no value passes.
namespace Roster

def registry : Registry :=
  Registry.add {} "never" (.custom (.predicate fun _ _ _ => .answer false)
    "should be a valid never" .invalid [])

def entry : Descriptor :=
  { kind := "object", options := [("rule", .obj [("name", .str "required|never")])] }

def list : Descriptor :=
  { kind := "array"
    options := [("itemType", .str "object"), ("rule", .obj [("name", .str "required|never")])] }

def nameRule : Rule :=
  .ofChecks [("required", .leaf .required),
    ("never", .custom "never" (.predicate fun _ _ _ => .answer false) []
      "should be a valid never" .invalid)]

def entryRule : Rule :=
  .ofChecks [("object", .object (some [("name", nameRule)]))]

def rules : RuleSet :=
  ⟨[("users", .ofChecks [("array", .array none none (some entryRule))])]⟩

def data : Json :=
  .obj [("users", .arr [.obj [], .obj [("name", .str "Ada")]])]

theorem registered [Engine] : registry.Registered := by
  have hadded : Registry.register {} "never" { kind := .predicate fun _ _ _ => .answer false }
      none none = (registry, .ok ()) := rfl
  exact .register .catalogue hadded

theorem compileRule_entry [Engine] :
    registry.compileRule "users" (.descriptor entry) = .ok entryRule := by
  have hentry : registry.lookup "object" = .ok (.builtin .object) := rfl
  have hparts : Entry.parts (entry.args "users") (.builtin .object) =
      .ok [("name", .pipe "required|never")] := rfl
  have hname : registry.compileRule "name" (.pipe "required|never") = .ok nameRule := by
    rw [Registry.compileRule]
    rfl
  rw [Registry.compileRule_descriptor, entry, hentry, ← entry]
  simp only [bind, Except.bind, hparts, Registry.compileParts, List.mapM_cons, hname]
  rfl

theorem compile [Engine] : registry.compile ⟨[("users", .descriptor list)]⟩ = .ok rules := by
  have hentry : registry.lookup "array" = .ok (.builtin .array) := rfl
  have hparts : Entry.parts (list.args "users") (.builtin .array) =
      .ok [("users", .descriptor entry)] := rfl
  rw [Registry.compile_eq_parts, Registry.compileParts, List.mapM_cons,
    Registry.compileRule_descriptor, list, hentry, ← list]
  simp only [bind, Except.bind, hparts, Registry.compileParts, List.mapM_cons, compileRule_entry]
  rfl

end Roster

namespace Validator

open scoped Regex

theorem validateCompiled_reference_roster :
    (Roster.registry.Registered ∧
      Roster.registry.compile ⟨[("users", .descriptor Roster.list)]⟩ = .ok Roster.rules) ∧
      ∃ errors,
        (∀ others, ContributeAll
            (Validator.setting ⟨Roster.registry, { indexArrayPaths := true }⟩ Roster.data [])
            (Roster.rules.places Roster.data) others ↔ others = errors) ∧
        errors = [⟨"missing_field", "users[0].name", "required"⟩,
          ⟨"invalid", "users[1].name", "should be a valid never"⟩] := by
  refine ⟨⟨Roster.registered, Roster.compile⟩, ?_⟩
  obtain ⟨errors, hreference, hreported, -⟩ :=
    validateCompiled_reference Roster.registered Roster.compile
      ⟨Roster.registry, { indexArrayPaths := true }⟩ Roster.data []
  exact ⟨errors, hreference, hreported.symm⟩

end Validator

end Rulebook
