import Rulebook.Proofs.Run.Simulation
import Rulebook.Proofs.Validator.Report
import Rulebook.Regex.Engine

namespace Rulebook

open Outcome

-- The error at a path with more in front of it.
def FieldError.behind (front : String) (e : FieldError) : FieldError :=
  { e with field := front ++ e.field }

-- The error of a field inside the value of another field.
def FieldError.under (parent : String) (e : FieldError) : FieldError :=
  { e with field := parent ++ "." ++ e.field }

def ErrorList.under (parent : String) (errors : ErrorList) : ErrorList :=
  { first := errors.first.under parent, rest := errors.rest.map (FieldError.under parent) }

theorem ErrorList.ofList?_map_under (parent : String) (errors : List FieldError) :
    ofList? (errors.map (FieldError.under parent)) =
      (ofList? errors).map (ErrorList.under parent) := by
  cases errors <;> rfl

namespace Spec

-- A rule with a type and one option.
theorem ofJson_option (field : String) {kind option : String} (hblank : Text.allBlank kind = false)
    (htrim : Text.trim kind = kind) (hoption : Descriptor.isOptionName option = true)
    (value : Json) :
    ofJson field (.obj [("type", .str kind), (option, value)]) =
      .ok (.descriptor { kind, options := [(option, value)] }) := by
  have htype : Descriptor.isOptionName "type" = false := by decide
  have hrequired : option ≠ "required" := by
    rintro rfl
    cases hoption
  simp [ofJson, Descriptor.ofMembers, Descriptor.readKind, Descriptor.readRequired, Members.get?,
    hblank, htrim, hoption, htype, hrequired, bind, Except.bind, Except.map]

theorem ofJson_objectRule (field : String) (schema : Json) :
    ofJson field (Builtin.objectRule (some schema)) =
      .ok (.descriptor { kind := "object", options := [("rule", schema)] }) :=
  ofJson_option field (by decide) (by decide) (by decide) schema

end Spec

namespace Registry

-- A schema inside an object compiles as it does by itself.
theorem compileRule_object [Engine] (field : String) {schema : Json}
    (hschema : schema.isNull = false) :
    compileRule {} field (.descriptor { kind := "object", options := [("rule", schema)] }) =
      (do
        let read ← Schema.ofJson schema
        let rules ← compile {} read
        .ok (.ofChecks [("object", .object (some rules.fields))])) := by
  have hentry : lookup {} "object" = .ok (.builtin .object) := rfl
  have hpresent : Json.present? "rule" [("rule", schema)] = some schema := by
    simp [Json.present?, Members.get?, hschema]
  have hpresence : buildPresence {} field
      { kind := "object", options := [("rule", schema)] } = .ok [] := rfl
  rw [compileRule_descriptor, hentry, hpresence]
  simp only [bind, Except.bind, Entry.parts, Builtin.parts, Descriptor.args, Args.get?, hpresent]
  cases Schema.ofJson schema with
  | error e => rfl
  | ok read =>
      simp only [Except.map, compile_eq_parts]
      cases compileParts {} read.fields with
      | error e => rfl
      | ok rules =>
          simp [Entry.build, Builtin.build, Args.has, Args.get?, hpresent]

theorem compile_object [Engine] (field : String) {schema : Json} (hschema : schema.isNull = false) :
    compile {} ⟨[(field, .descriptor { kind := "object", options := [("rule", schema)] })]⟩ =
      (do
        let read ← Schema.ofJson schema
        let rules ← compile {} read
        .ok ⟨[(field, .ofChecks [("object", .object (some rules.fields))])]⟩) := by
  rw [compile_eq_parts, compileParts, List.mapM_cons, List.mapM_nil,
    compileRule_object field hschema]
  cases Schema.ofJson schema with
  | error e => rfl
  | ok read =>
      simp only [bind, Except.bind]
      cases compile {} read <;> rfl

end Registry

namespace Run

theorem ofParts_getD (errors : List FieldError) : (ofParts errors).getD [] = errors := by
  cases errors <;> rfl

theorem place_object (run : Run) (fields : List (String × Rule))
    (members : List (String × Json)) (record : Json) (path : String) :
    run.place ⟨.ofChecks [("object", .object (some fields))], .obj members, record, path⟩ =
      fields.flatMap fun field =>
        run.place ⟨field.2, (Json.obj members).field field.1, .obj members,
          path ++ "." ++ field.1⟩ := by
  have hchecks : (RuleOf.ofChecks [("object", .object (some fields))]).checks =
      [("object", .object (some fields))] := rfl
  have hskip : Place.skipped ⟨.ofChecks [("object", .object (some fields))], .obj members,
      record, path⟩ = false := rfl
  have hordinary : (Check.object (some fields)).IsOrdinary := trivial
  rw [place_eq, hskip, if_neg Bool.false_ne_true, hchecks, List.findSome?_singleton,
    check_eq _ _ _ _ _ hordinary]
  simp only [Check.failure?, Check.places, Json.isObject, if_true, Option.getD_some,
    ofParts_getD, List.flatMap_map]

end Run

namespace Validator

-- Behind more text, only the paths differ.
theorem simulates_behind (config : Config) (front : String) (data inner : Json) :
    Simulates (({ config } : Validator).run inner []) (({ config } : Validator).run data [])
      (front ++ ·) (FieldError.behind front) where
  element path index := by
    by_cases hindexed : config.indexArrayPaths <;>
      simp [Run.elementPath, run, hindexed, String.append_assoc]
  report path check failure := rfl

-- The catalogue looks neither at paths nor at the record of a validation.
theorem place_behind (config : Config) (front : String) (data inner : Json) (place : Place)
    (hrule : place.rule.Every Check.IsBuiltin) :
    (({ config } : Validator).run data []).place (place.moved (front ++ ·)) =
      ((({ config } : Validator).run inner []).place place).map (FieldError.behind front) := by
  refine Run.place_moved (simulates_behind config front data inner) place ?_
  refine hrule.mono fun check hcheck => ?_
  exact {
    ordinary := hcheck.isOrdinary
    field := fun part _ path => by simp only [String.append_assoc]
    failure := fun value record path => hcheck.failure?_eq .. }

-- A record inside a record is validated as it is by itself, under the name of its field.
theorem validateCompiled_under [Engine] (config : Config) (name : String)
    (members : List (String × Json)) {schema : Schema} {rules : RuleSet}
    (hrules : Registry.compile {} schema = .ok rules) :
    ({ config } : Validator).validateCompiled (.obj [(name, .obj members)])
        ⟨[(name, .ofChecks [("object", .object (some rules.fields))])]⟩ [] =
      (({ config } : Validator).validateCompiled (.obj members) rules []).map
        (ErrorList.under name) := by
  have hbuiltin : ∀ field ∈ rules.fields, field.2.Every Check.IsBuiltin := fun field hfield =>
    Registry.compile_every (fun _ _ _ hbuilt => hbuilt.isBuiltin) hrules hfield
  have hdata : (Json.obj [(name, .obj members)]).field name = .obj members := by
    simp [Json.field, Json.get?, Members.get?]
  rw [validateCompiled_eq, validateCompiled_eq, ← ErrorList.ofList?_map_under]
  simp only [RuleSet.places, List.map_cons, List.map_nil, List.flatMap_cons, List.flatMap_nil,
    List.append_nil, hdata, Run.place_object, List.flatMap_map, List.map_flatMap]
  refine congrArg ErrorList.ofList? (List.flatMap_congr fun field hfield => ?_)
  exact place_behind config (name ++ ".") _ _ ⟨field.2, _, _, field.1⟩ (hbuiltin field hfield)

-- The same for compilation and validation together: faults of the inner schema are
-- faults of the outer one.
theorem validateJson_under [Engine] (config : Config) (name : String) {schema : Json}
    (hschema : schema.isNull = false) (members : List (String × Json)) :
    ({ config } : Validator).validateJson (.obj [(name, .obj members)])
        (.obj [(name, Builtin.objectRule (some schema))]) [] =
      (({ config } : Validator).validateJson (.obj members) schema []).map
        (Option.map (ErrorList.under name)) := by
  have houter : Schema.ofJson (.obj [(name, Builtin.objectRule (some schema))]) =
      .ok ⟨[(name, .descriptor { kind := "object", options := [("rule", schema)] })]⟩ := by
    simp [Schema.ofJson, Schema.ofMembers, Spec.ofJson_objectRule, bind, Except.bind, Except.map]
  simp only [validateJson, validate, compile, houter]
  cases hread : Schema.ofJson schema with
  | error e =>
      simp only [bind, Except.bind, Registry.compile_object _ hschema, hread]
      rfl
  | ok read =>
      simp only [bind, Except.bind, Registry.compile_object _ hschema, hread]
      cases hrules : Registry.compile {} read with
      | error e => rfl
      | ok rules => exact congrArg Except.ok (validateCompiled_under config name members hrules)

end Validator

namespace Json

-- A value under a chain of names, the outermost one first.
def nested (names : List String) (value : Json) : Json :=
  names.foldr (fun name inner => .obj [(name, inner)]) value

-- The schema that asks for objects along such a chain, with another schema at its end.
def nestedSchema (names : List String) (schema : Json) : Json :=
  names.foldr
    (fun name inner => .obj [(name, .obj [("type", .str "object"), ("rule", inner)])]) schema

theorem exists_nested_eq_obj (names : List String) (members : List (String × Json)) :
    ∃ outer, (obj members).nested names = obj outer := by
  cases names with
  | nil => exact ⟨members, rfl⟩
  | cons name rest => exact ⟨_, rfl⟩

theorem isNull_nestedSchema (names : List String) {schema : Json}
    (hschema : schema.isNull = false) : (schema.nestedSchema names).isNull = false := by
  cases names with
  | nil => exact hschema
  | cons name rest => rfl

end Json

namespace Validator

theorem validateJson_nestedSchema [Engine] (config : Config) (names : List String) {schema : Json}
    (hschema : schema.isNull = false) (members : List (String × Json)) :
    ({ config } : Validator).validateJson ((Json.obj members).nested names)
        (schema.nestedSchema names) [] =
      (({ config } : Validator).validateJson (.obj members) schema []).map
        (Option.map fun errors => names.foldr ErrorList.under errors) := by
  induction names with
  | nil =>
      simp only [Json.nested, Json.nestedSchema, List.foldr_nil]
      cases ({ config } : Validator).validateJson (.obj members) schema [] with
      | error e => rfl
      | ok errors => cases errors <;> rfl
  | cons name rest ih =>
      obtain ⟨outer, houter⟩ := Json.exists_nested_eq_obj rest members
      have hunder := validateJson_under config name (Json.isNull_nestedSchema rest hschema) outer
      rw [← houter, ih] at hunder
      refine hunder.trans ?_
      cases ({ config } : Validator).validateJson (.obj members) schema [] with
      | error e => rfl
      | ok errors => cases errors <;> rfl

-- A schema means the same at any depth: what it says of an object, faults of the schema
-- included, it says of the object inside others, with the names of their fields in
-- front of every path.
theorem validateJson_nested [Engine] (config : Config) {schema : Json} (hschema : schema ≠ .null)
    (members : List (String × Json)) :
    (∀ name,
      ({ config } : Validator).validateJson (.obj [(name, .obj members)])
          (.obj [(name, .obj [("type", .str "object"), ("rule", schema)])]) [] =
        (({ config } : Validator).validateJson (.obj members) schema []).map
          (Option.map (ErrorList.under name))) ∧
      ∀ names : List String,
        ({ config } : Validator).validateJson ((Json.obj members).nested names)
            (schema.nestedSchema names) [] =
          (({ config } : Validator).validateJson (.obj members) schema []).map
            (Option.map fun errors => names.foldr ErrorList.under errors) := by
  have hnull : schema.isNull = false := by
    cases schema with
    | null => exact False.elim (hschema rfl)
    | bool b | num n | str s | arr items | obj members => rfl
  exact ⟨fun name => validateJson_under config name hnull members,
    fun names => validateJson_nestedSchema config names hnull members⟩

open scoped Regex

theorem validateJson_nested_age :
    Json.obj [("age", .str "required|int")] ≠ .null ∧
      ({} : Validator).validateJson ((Json.obj []).nested ["user", "profile"])
          ((Json.obj [("age", .str "required|int")]).nestedSchema ["user", "profile"]) [] =
        .ok (some ⟨⟨"missing_field", "user.profile.age", "required"⟩, []⟩) := by
  have hschema : Json.obj [("age", .str "required|int")] ≠ .null := by simp
  refine ⟨hschema, ((validateJson_nested {} hschema []).2 ["user", "profile"]).trans ?_⟩
  have hage : Registry.compileRule {} "age" (.pipe "required|int") =
      .ok (.ofChecks [("required", .leaf .required), ("int", .leaf (.int {}))]) := by
    rw [Registry.compileRule]
    rfl
  have hread : Schema.ofJson (.obj [("age", .str "required|int")]) =
      .ok ⟨[("age", .pipe "required|int")]⟩ := rfl
  simp only [validateJson, validate, compile, hread, bind, Except.bind,
    Registry.compile_eq_parts, Registry.compileParts, List.mapM_cons, hage]
  rfl

end Validator

end Rulebook
