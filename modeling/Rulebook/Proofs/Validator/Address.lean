import Rulebook.Proofs.Compile.Distinct
import Rulebook.Proofs.Run.Address
import Rulebook.Proofs.Validator.Messages
import Rulebook.Regex.Engine

namespace Rulebook

namespace RuleSet

-- Names of fields, at any depth, that cannot be taken for two steps of a path.
def HasPlainNames (rules : RuleSet) : Prop :=
  ∀ field ∈ rules.fields, Path.IsPlain field.1 ∧
    field.2.Every fun check => ∀ name ∈ check.fieldNames, Path.IsPlain name

variable {rules : RuleSet}

theorem places_siblings (hdistinct : (rules.fields.map (·.1)).Nodup) (hnames : rules.HasPlainNames)
    (data : Json) :
    Siblings [] data (rules.fields.map fun field => .field field.1) (rules.places data) := by
  refine .of_fields data id hdistinct fun name hname => ?_
  obtain ⟨field, hfield, rfl⟩ := List.mem_map.mp hname
  exact Path.decode_plain (hnames field hfield).1

theorem places_addressable [Engine] {registry : Registry} {schema : Schema}
    (hschema : schema.Distinct)
    (hrules : registry.compile schema = .ok rules) (hnames : rules.HasPlainNames) (data : Json) :
    ∀ place ∈ rules.places data, place.rule.Every Check.Addressable := by
  intro place hplace
  obtain ⟨field, hfield, rfl⟩ := List.mem_map.mp hplace
  have hdistinct := (Registry.compile_distinct hschema hrules).2 field hfield
  exact ((hnames field hfield).2.and hdistinct).mono fun check hcheck => ⟨hcheck.1, hcheck.2⟩

end RuleSet

namespace Validator

-- With the indices in them, the paths of the errors are addresses: no two are the
-- same, and each leads from the data to the value that a check rejects.
theorem reported_addresses [Engine] {registry : Registry} (hregistry : registry.Registered)
    {schema : Schema} (hschema : schema.Distinct) {rules : RuleSet}
    (hrules : registry.compile schema = .ok rules) (hnames : rules.HasPlainNames)
    {validator : Validator} (hindexed : validator.config.indexArrayPaths = true)
    (data : Json) (overrides : Texts) :
    ((validator.reported data rules overrides).map FieldError.field).Nodup ∧
      ∀ error ∈ validator.reported data rules overrides, ∃ finding : Finding,
        (∃ place ∈ rules.places data, Reaches true place finding.place) ∧
        finding.Rejects (validator.run data overrides) ∧
        error = validator.config.resolve overrides finding.place.path finding.check
          finding.failure ∧
        data.follow (Path.decode error.field) = finding.place.value := by
  have hsiblings :=
    rules.places_siblings (Registry.compile_distinct hschema hrules).1 hnames data
  have hplaces := RuleSet.places_addressable hschema hrules hnames data
  obtain ⟨findings, hfindings⟩ := exists_findings (validator.run data overrides) (rules.places data)
  have hmapped := hfindings.map fun finding =>
    validator.config.resolve overrides finding.place.path finding.check finding.failure
  rw [← (contributeAll_iff hregistry hrules).mp hmapped]
  constructor
  · have hnodup := hfindings.nodup hindexed hsiblings hplaces
    have hpaths : findings.map Finding.address =
        (findings.map (·.place.path)).map Path.decode := by
      rw [List.map_map]
      rfl
    rw [hpaths] at hnodup
    rw [List.map_map]
    exact hnodup.of_map
  · intro error herror
    obtain ⟨finding, hmem, rfl⟩ := List.mem_map.mp herror
    obtain ⟨place, hplace, hreach, hrejects⟩ := hfindings.rejects finding hmem
    have hindices : (validator.run data overrides).indexed = true := hindexed
    rw [hindices] at hreach
    refine ⟨finding, ⟨place, hplace, hreach⟩, hrejects, rfl, ?_⟩
    obtain ⟨step, -, haddress, hvalue⟩ := Outcome.exists_of_mem_right hsiblings.reached hplace
    refine (hreach.addressed (hplaces place hplace)).2 data ?_
    rw [haddress, hvalue]
    rfl

end Validator

namespace Roster

theorem distinct : Schema.Distinct ⟨[("users", .descriptor list)]⟩ := by
  have hentry : (Json.obj [("name", .str "required|never")]).Distinct :=
    .obj (by decide) (by simpa using Json.Distinct.str _)
  have hlist : Spec.Distinct (.descriptor list) :=
    List.forall_mem_cons.mpr ⟨.str "object", List.forall_mem_singleton.mpr hentry⟩
  exact ⟨by decide, List.forall_mem_singleton.mpr hlist⟩

theorem hasPlainNames : rules.HasPlainNames := by
  have hname : nameRule.Every fun check => ∀ name ∈ check.fieldNames, Path.IsPlain name :=
    RuleOf.every_ofChecks (by simp [Check.fieldNames, Check.parts])
  have hentry : entryRule.Every fun check => ∀ name ∈ check.fieldNames, Path.IsPlain name := by
    refine RuleOf.every_ofChecks ?_
    simpa [Check.fieldNames, Check.parts] using ⟨⟨by decide, by decide⟩, hname⟩
  refine List.forall_mem_singleton.mpr ⟨⟨by decide, by decide⟩, RuleOf.every_ofChecks ?_⟩
  simpa [Check.fieldNames, Check.parts] using hentry

end Roster

namespace Validator

open scoped Regex

theorem reported_addresses_roster :
    (Roster.registry.Registered ∧ Schema.Distinct ⟨[("users", .descriptor Roster.list)]⟩ ∧
      Roster.registry.compile ⟨[("users", .descriptor Roster.list)]⟩ = .ok Roster.rules ∧
      Roster.rules.HasPlainNames) ∧
      (reported ⟨Roster.registry, { indexArrayPaths := true }⟩ Roster.data Roster.rules []).map
        FieldError.field = ["users[0].name", "users[1].name"] ∧
      ["users[0].name", "users[1].name"].Nodup ∧
      ∀ error ∈ reported ⟨Roster.registry, { indexArrayPaths := true }⟩ Roster.data Roster.rules [],
        ∃ finding : Finding,
          finding.Rejects
            (run ⟨Roster.registry, { indexArrayPaths := true }⟩ Roster.data []) ∧
          Roster.data.follow (Path.decode error.field) = finding.place.value := by
  refine ⟨⟨Roster.registered, Roster.distinct, Roster.compile, Roster.hasPlainNames⟩, rfl, ?_⟩
  have hindexed : (⟨Roster.registry, { indexArrayPaths := true }⟩ :
      Validator).config.indexArrayPaths = true := rfl
  obtain ⟨hnodup, hvalues⟩ := reported_addresses Roster.registered Roster.distinct
    Roster.compile Roster.hasPlainNames hindexed Roster.data []
  refine ⟨hnodup, fun error herror => ?_⟩
  obtain ⟨finding, -, hrejects, -, hvalue⟩ := hvalues error herror
  exact ⟨finding, hrejects, hvalue⟩

end Validator

end Rulebook
