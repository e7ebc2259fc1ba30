import Rulebook.Proofs.Compile.Plain
import Rulebook.Proofs.Rule.Reread
import Rulebook.Regex.Engine
import Rulebook.Validator.Basic

namespace Rulebook

namespace Registry

theorem compileRule_restated [Engine] (registry : Registry) (field : String) (spec : Spec) :
    registry.compileRule field spec.restated = registry.compileRule field spec := by
  cases spec with
  | pattern source => exact (compileRule_pattern field source).symm
  | pipe source => rfl
  | values allowed => rfl
  | descriptor d => rfl

theorem compileParts_restated [Engine] (registry : Registry) (schema : Schema) :
    registry.compileParts schema.restated.fields = registry.compileParts schema.fields := by
  simp only [compileParts, Schema.restated, List.mapM_map, Function.comp_def,
    compileRule_restated]

-- A schema that is put together by hand means the same after it was written and read
-- back, as long as the written form shows its descriptors as they are.
theorem compile_reread [Engine] {schema : Schema} (built : schema.Built)
    (faithful : schema.Faithful)
    (registry : Registry) :
    (Schema.ofJson schema.toJson >>= registry.compile) = registry.compile schema := by
  rw [Schema.ofJson_toJson_of_faithful built faithful]
  show registry.compile schema.restated = registry.compile schema
  rw [compile_eq_parts, compile_eq_parts, compileParts_restated]

-- An object keeps the schema of its fields in the written form.
theorem compileRule_withSchema [Engine] {registry : Registry} {d : Descriptor} {schema : Schema}
    (hentry : registry.resolve d.kind = some (.builtin .object)) (built : schema.Built)
    (faithful : schema.Faithful) (field : String) :
    registry.compileRule field (.descriptor (d.withSchema schema)) = (do
      let rules ← registry.compile schema
      let presence ← registry.buildPresence field d
      .ok (.ofChecks ((d.kind, .object (some rules.fields)) :: presence))) := by
  have hrule : ((d.withSchema schema).args field).get? "rule" = some schema.toJson := by
    have hget : Members.get? "rule" (d.withSchema schema).options = some schema.toJson :=
      (Members.get?_set "rule" "rule" schema.toJson d.options).trans (if_pos rfl)
    simp only [Args.get?, Json.present?, Descriptor.args, hget]
    rfl
  have hlookup : registry.lookup (d.withSchema schema).kind = .ok (.builtin .object) :=
    lookup_eq_ok_iff.mpr hentry
  have hparts : Entry.parts ((d.withSchema schema).args field) (.builtin .object) =
      .ok schema.restated.fields := by
    rw [Entry.parts, Builtin.parts, hrule]
    simp only [Schema.ofJson_toJson_of_faithful built faithful]
    rfl
  rw [compileRule_descriptor, hlookup, compile_eq_parts, ← compileParts_restated]
  simp only [bind, Except.bind, hparts]
  cases registry.compileParts schema.restated.fields with
  | error error => rfl
  | ok rules =>
      simp only [Except.map, Entry.build, Builtin.build, Args.has, hrule]
      rfl

end Registry

open scoped Regex

-- A code that is given by a pattern, and a home with a field of its own.
namespace Profile

def homeSchema : Schema :=
  Schema.insert {} "town" (.pipe "alpha")

def place : Descriptor :=
  { kind := "object", required := true }

def home : Descriptor :=
  place.withSchema homeSchema

def schema : Schema :=
  (Schema.insert {} "code" (.pattern "a")).insert "home" (.descriptor home)

theorem homeSchema_built : homeSchema.Built := by
  have htown : Spec.Built (.pipe "alpha") := trivial
  exact .field .new "town" htown

theorem homeSchema_faithful : homeSchema.Faithful :=
  List.forall_mem_singleton.mpr trivial

theorem built : schema.Built := by
  have hcode : Spec.Built (.pattern "a") := trivial
  have hhome : home.Built := ((Descriptor.Built.new "object").require true).withSchema homeSchema
  exact .field (.field .new "code" hcode) "home" hhome

theorem faithful : schema.Faithful := by
  have hnamed : Text.allBlank "object" = false := by decide
  have htrimmed : Text.trim "object" = "object" := by decide
  refine List.forall_mem_cons.mpr ⟨trivial, List.forall_mem_singleton.mpr ?_⟩
  exact ⟨hnamed, htrimmed, List.forall_mem_singleton.mpr rfl⟩

def codeRule : Rule :=
  .ofChecks [("string",
    .leaf (.text "string" { format := some ⟨Regex.isMatch (.char 'a'), "/a/"⟩ }))]

def homeRules : RuleSet :=
  ⟨[("town", .ofChecks [("alpha", .leaf .alpha)])]⟩

def homeRule : Rule :=
  .ofChecks [("object", .object (some homeRules.fields)), ("required", .leaf .required)]

def rules : RuleSet :=
  ⟨[("code", codeRule), ("home", homeRule)]⟩

theorem compile_homeSchema [Engine] : Registry.compile {} homeSchema = .ok homeRules := by
  have htown : Registry.compileRule {} "town" (.pipe "alpha") =
      .ok (.ofChecks [("alpha", .leaf .alpha)]) := by
    rw [Registry.compileRule]
    rfl
  exact Registry.compile_eq_ok_iff.mpr (.cons ⟨rfl, htown⟩ .nil)

theorem compile : Registry.compile {} schema = .ok rules := by
  have hcode : Registry.compileRule {} "code" (.pattern "a") = .ok codeRule := by
    rw [Registry.compileRule]
    rfl
  have hobject : Registry.resolve {} place.kind = some (.builtin .object) := rfl
  have hhome : Registry.compileRule {} "home" (.descriptor home) = .ok homeRule := by
    rw [home, Registry.compileRule_withSchema hobject homeSchema_built homeSchema_faithful,
      compile_homeSchema]
    rfl
  exact Registry.compile_eq_ok_iff.mpr (.cons ⟨rfl, hcode⟩ (.cons ⟨rfl, hhome⟩ .nil))

end Profile

theorem Registry.compile_reread_profile :
    (Profile.schema.Built ∧ Profile.schema.Faithful) ∧
      (Schema.ofJson Profile.schema.toJson >>= Registry.compile {}) = .ok Profile.rules :=
  ⟨⟨Profile.built, Profile.faithful⟩,
    (Registry.compile_reread Profile.built Profile.faithful {}).trans Profile.compile⟩

-- An age whose type is given once more among the options.
namespace Retyped

def age : Descriptor :=
  Descriptor.withOption { kind := "int" } "type" (.str "string")

def schema : Schema :=
  Schema.insert {} "age" (.descriptor age)

def data : Json :=
  .obj [("age", .num (.int 1 (by decide)))]

theorem built : schema.Built := by
  have hage : age.Built := (Descriptor.Built.new "int").option "type" (.str "string")
  exact .field .new "age" hage

theorem compile [Engine] : Registry.compile {} schema =
    .ok ⟨[("age", .ofChecks [("int", .leaf (.int {}))])]⟩ := by
  have hage : Registry.compileRule {} "age" (.descriptor age) =
      .ok (.ofChecks [("int", .leaf (.int {}))]) := by
    rw [Registry.compileRule_plain rfl rfl]
    rfl
  exact Registry.compile_eq_ok_iff.mpr (.cons ⟨rfl, hage⟩ .nil)

theorem compile_string [Engine] :
    Registry.compile {} ⟨[("age", .descriptor { kind := "string" })]⟩ =
    .ok ⟨[("age", .ofChecks [("string", .leaf (.text "string" {}))])]⟩ := by
  have hage : Registry.compileRule {} "age" (.descriptor { kind := "string" }) =
      .ok (.ofChecks [("string", .leaf (.text "string" {}))]) := by
    rw [Registry.compileRule_plain rfl rfl]
    rfl
  exact Registry.compile_eq_ok_iff.mpr (.cons ⟨rfl, hage⟩ .nil)

end Retyped

-- A number passes before the schema is written, and fails after it is read back.
theorem Validator.validate_reread_retyped :
    Retyped.schema.Built ∧
      Validator.validate {} Retyped.data Retyped.schema [] = .ok none ∧
      Validator.validateJson {} Retyped.data Retyped.schema.toJson [] =
        .ok (some ⟨⟨"invalid", "age", "should be a string"⟩, []⟩) := by
  have hread : Schema.ofJson Retyped.schema.toJson =
      .ok ⟨[("age", .descriptor { kind := "string" })]⟩ := rfl
  refine ⟨Retyped.built, ?_, ?_⟩
  · rw [Validator.validate, Validator.compile, Retyped.compile]
    rfl
  · rw [Validator.validateJson, hread]
    show Validator.validate {} Retyped.data _ [] = _
    rw [Validator.validate, Validator.compile, Retyped.compile_string]
    rfl

end Rulebook
