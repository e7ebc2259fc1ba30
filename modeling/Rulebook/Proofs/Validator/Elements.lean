import Rulebook.Proofs.Compile.FrontEnds
import Rulebook.Proofs.Run.Alike
import Rulebook.Proofs.Validator.Depth
import Rulebook.Proofs.Validator.Presence
import Rulebook.Regex.Engine

namespace Rulebook

open Outcome

section Compared

namespace Builtin

-- Without the option for it, no check compares its value with a field beside it.
theorem compared_of_build [Engine] {builtin : Builtin} {args : Args} {rules : List (String × Rule)}
    {check : Check} (h : builtin.build args rules = .ok check)
    (hcompare : args.get? "compare" = none) : check.compared = none := by
  cases builtin
  case password =>
    obtain ⟨p, hp, h⟩ := bind_eq_ok_iff.mp h
    obtain ⟨charset, -, hp⟩ := bind_eq_ok_iff.mp hp
    rw [Args.text, hcompare] at hp
    cases hp
    cases h
    rfl
  case required | accepted | alpha | phone | boolean | object =>
    cases h
    rfl
  case array =>
    obtain ⟨min, -, h⟩ := bind_eq_ok_iff.mp h
    obtain ⟨max, -, h⟩ := bind_eq_ok_iff.mp h
    cases h
    rfl
  case id | date | dateTime | email =>
    obtain ⟨leaf, hleaf, h⟩ := bind_eq_ok_iff.mp h
    obtain ⟨allowEmpty, -, hleaf⟩ := bind_eq_ok_iff.mp hleaf
    cases hleaf
    cases h
    rfl
  case numeric | captcha | string | url | int | number | enum =>
    obtain ⟨options, -, h⟩ := bind_eq_ok_iff.mp h
    cases h
    rfl

end Builtin

-- The option of a declaration that names a field to compare the value with.
def Spec.compare? : Spec → Option Json
  | .descriptor d => Json.present? "compare" d.options
  | _ => none

namespace Registry

variable {field : String} {rule : Rule}

theorem Builds.compared_eq_none [Engine] {args : Args} {rules : List (String × Rule)}
    {check : Check}
    (h : Builds {} args rules check) (hcompare : args.get? "compare" = none) :
    check.compared = none := by
  obtain ⟨entry, hentry, hbuild⟩ := h
  cases entry with
  | builtin builtin => exact Builtin.compared_of_build hbuild hcompare
  | extension extension => simpa [Members.get?] using get?_added_of_resolve hentry

theorem buildToken_compared [Engine] {token : Token} {check : String × Check}
    (h : buildToken {} field token = .ok check) : check.2.compared = none := by
  obtain ⟨entry, hentry, h⟩ := bind_eq_ok_iff.mp h
  obtain ⟨built, hbuilt, h⟩ := bind_eq_ok_iff.mp h
  cases h
  have hresolve := lookup_eq_ok_iff.mp hentry
  refine Builds.compared_eq_none ⟨entry, hresolve, hbuilt⟩ ?_
  obtain ⟨-, builtin, rfl⟩ | ⟨_, _, _, _, rfl⟩ := Registered.catalogue.entry_cases hresolve
  · have hnames : "compare" ∉ builtin.params.names := by cases builtin <;> decide
    rw [Args.get?, Token.args]
    cases token.raw with
    | none => rfl
    | some raw => exact Params.present?_bind hnames raw
  · simpa [Members.get?] using get?_added_of_resolve hresolve

theorem compareless_descriptor [Engine] {d : Descriptor}
    (h : compileRule {} field (.descriptor d) = .ok rule)
    (hcompare : Json.present? "compare" d.options = none) : rule.compared = [] := by
  obtain ⟨entry, parts, rules, check, presence, hentry, -, -, hbuild, hpresence, rfl⟩ :=
    compileRule_descriptor_cases h
  have hbuilds : Builds {} (d.args field) rules check := ⟨entry, hentry, hbuild⟩
  refine List.filterMap_eq_nil_iff.mpr fun other hother => ?_
  rcases List.mem_cons.mp (RuleOf.mem_ofChecks.mp hother) with rfl | hother
  · exact hbuilds.compared_eq_none hcompare
  · obtain ⟨-, extra, rfl, hname, args, hrule, hbuilt⟩ | ⟨-, rfl⟩ := buildPresence_cases hpresence
    · obtain rfl := List.mem_singleton.mp hother
      rw [hbuilt.eq_required rfl (hrule.trans hname)]
      rfl
    · cases hother

-- A declaration without that option compiles to checks that compare nothing.
theorem compared_eq_nil [Engine] {spec : Spec} (h : compileRule {} field spec = .ok rule)
    (hcompare : spec.compare? = none) : rule.compared = [] := by
  cases spec with
  | pipe source =>
      rw [compileRule] at h
      obtain ⟨checks, hchecks, h⟩ := bind_eq_ok_iff.mp h
      cases h
      refine List.filterMap_eq_nil_iff.mpr fun check hcheck => ?_
      obtain ⟨token, -, htoken⟩ :=
        exists_of_mem_right (mapM_eq_ok_iff.mp hchecks) (RuleOf.mem_ofChecks.mp hcheck)
      exact buildToken_compared htoken
  | values allowed =>
      rw [compileRule_values] at h
      exact compareless_descriptor h rfl
  | pattern source =>
      rw [compileRule_pattern] at h
      exact compareless_descriptor h rfl
  | descriptor d => exact compareless_descriptor h hcompare

end Registry

end Compared

-- A rule as it is written has no option to compare the value with a field.
def Json.Compareless (rule : Json) : Prop :=
  ∀ members, rule = .obj members → Json.present? "compare" members = none

theorem Json.Compareless.compare? {rule : Json} (h : rule.Compareless) {field : String}
    {spec : Spec} (hspec : Spec.ofJson field rule = .ok spec) : spec.compare? = none := by
  cases rule with
  | obj members =>
      obtain ⟨d, hd, rfl⟩ := map_eq_ok_iff.mp hspec
      obtain ⟨kind, -, hd⟩ := bind_eq_ok_iff.mp hd
      obtain ⟨required, -, hd⟩ := bind_eq_ok_iff.mp hd
      obtain rfl := Except.ok.inj hd
      have hname : Descriptor.isOptionName "compare" = true := by decide
      have hoptions := h members rfl
      rw [Json.present?] at hoptions
      rw [Spec.compare?, Json.present?, Members.get?_filter hname, hoptions]
  | str source =>
      obtain rfl := Except.ok.inj hspec
      rfl
  | arr allowed =>
      obtain rfl := Except.ok.inj hspec
      rfl
  | null | bool b | num n => cases hspec

-- The rule of a list whose elements have a rule each.
def Json.listRule (element : Json) : Json :=
  .obj [("type", .str "array"), ("itemType", element)]

theorem Spec.ofJson_listRule (field : String) (element : Json) :
    ofJson field element.listRule =
      .ok (.descriptor { kind := "array", options := [("itemType", element)] }) :=
  ofJson_option field (by decide) (by decide) (by decide) element

-- The rule of a list, compiled.
def RuleOf.list (element : Rule) : Rule :=
  .ofChecks [("array", .array none none (some element))]

namespace Registry

variable {element : Json}

theorem compileRule_list [Engine] (field : String) (hnull : element ≠ .null)
    (hobject : element ≠ .str "object") :
    compileRule {} field (.descriptor { kind := "array", options := [("itemType", element)] }) =
      (do
        let spec ← Spec.ofJson field element
        let rule ← compileRule {} field spec
        .ok (.list rule)) := by
  have hentry : lookup {} "array" = .ok (.builtin .array) := rfl
  have hisNull : element.isNull = false := by
    cases element <;> first | rfl | exact absurd rfl hnull
  have hpresent : Json.present? "itemType" [("itemType", element)] = some element := by
    simp [Json.present?, Members.get?, hisNull]
  have hrule : Builtin.elementRule (some element) none = some element := by
    unfold Builtin.elementRule
    split <;> simp_all
  have hpresence : buildPresence {} field
      { kind := "array", options := [("itemType", element)] } = .ok [] := rfl
  have hmissing : Json.present? "rule" [("itemType", element)] = none := rfl
  rw [compileRule_descriptor, hentry, hpresence]
  simp only [bind, Except.bind, Entry.parts, Builtin.parts, Descriptor.args, Args.get?, hpresent,
    hmissing, hrule]
  cases Spec.ofJson field element with
  | error e => rfl
  | ok spec =>
      simp only [Except.map, compileParts, List.mapM_cons, List.mapM_nil]
      cases compileRule {} field spec <;> rfl

-- Reads and compiles a schema as it is written.
def compileJson [Engine] (registry : Registry) (schema : Json) : Except SetupError RuleSet := do
  registry.compile (← Schema.ofJson schema)

theorem compileJson_field [Engine] (field : String) (rule : Json) :
    compileJson {} (.obj [(field, rule)]) = (do
      let spec ← Spec.ofJson field rule
      let compiled ← compileRule {} field spec
      .ok ⟨[(field, compiled)]⟩) := by
  simp only [compileJson, Schema.ofJson, Schema.ofMembers]
  cases Spec.ofJson field rule with
  | error e => rfl
  | ok spec =>
      simp only [bind, Except.bind, Except.map, compile_eq_parts, compileParts, List.mapM_cons,
        List.mapM_nil]
      cases compileRule {} field spec <;> rfl

-- The rule of a list compiles as the rule of its elements does.
theorem compileJson_list [Engine] (field : String) (hnull : element ≠ .null)
    (hobject : element ≠ .str "object") :
    compileJson {} (.obj [(field, element.listRule)]) = (do
      let spec ← Spec.ofJson field element
      let compiled ← compileRule {} field spec
      .ok ⟨[(field, compiled.list)]⟩) := by
  rw [compileJson_field, Spec.ofJson_listRule]
  simp only [bind, Except.bind, compileRule_list field hnull hobject]
  cases Spec.ofJson field element with
  | error e => rfl
  | ok spec =>
      dsimp only
      cases compileRule {} field spec <;> rfl

end Registry

section Runs

-- A check that compares nothing does not look at the record.
theorem Check.failure?_of_compared {check : Check} (h : check.IsBuiltin)
    (hcompared : check.compared = none) (run : Run) (value record record' : Json)
    (path : String) :
    check.failure? run value record' path = check.failure? run value record path := by
  cases check with
  | custom | foreign => exact False.elim h
  | object fields => rfl
  | array min max element => rfl
  | leaf leaf =>
      cases leaf with
      | password p =>
          have hcompare : p.compare = none := hcompared
          simp only [failure?, Leaf.verdict, Password.verdict, Password.brokenCompare, hcompare]
      | _ => rfl

namespace Run

theorem place_of_compared (run : Run) {rule : Rule} (hrule : rule.Every Check.IsBuiltin)
    (hcompared : rule.compared = []) (value record record' : Json) (path : String) :
    run.place ⟨rule, value, record', path⟩ = run.place ⟨rule, value, record, path⟩ := by
  have hskip : Place.skipped ⟨rule, value, record', path⟩ =
      Place.skipped ⟨rule, value, record, path⟩ := rfl
  rw [place_eq, place_eq, hskip]
  congr 2
  refine findSome?_congr fun check hcheck => ?_
  have hbuiltin := hrule.here hcheck
  have hnone := List.filterMap_eq_nil_iff.mp hcompared check hcheck
  rw [check_eq _ _ _ _ _ hbuiltin.isOrdinary, check_eq _ _ _ _ _ hbuiltin.isOrdinary,
    Check.failure?_of_compared hbuiltin hnone run value record record']

theorem place_list (run : Run) (element : Rule) (items : List Json) (record : Json)
    (path : String) :
    run.place ⟨element.list, .arr items, record, path⟩ =
      items.zipIdx.flatMap fun (item, index) =>
        run.place ⟨element, item, .null, run.elementPath path index⟩ := by
  have hchecks : element.list.checks = [("array", .array none none (some element))] := rfl
  have hskip : Place.skipped ⟨element.list, .arr items, record, path⟩ = false := rfl
  have hordinary : (Check.array none none (some element)).IsOrdinary := trivial
  have hlength : brokenLength none none items.length = none := rfl
  rw [place_eq, hskip, if_neg Bool.false_ne_true, hchecks, List.findSome?_singleton,
    check_eq _ _ _ _ _ hordinary]
  simp only [Check.failure?, hlength, Check.places, ofParts_getD, List.flatMap_map, elementPath]

end Run

end Runs

-- The error with another text in place of the one that its path begins with.
def FieldError.rebase (front front' : String) (e : FieldError) : FieldError :=
  { e with field := front' ++ String.ofList (e.field.toList.drop front.toList.length) }

theorem FieldError.rebase_behind (front front' : String) (e : FieldError) :
    (e.behind front).rebase front front' = e.behind front' := by
  simp [rebase, behind, String.toList_append]

namespace Validator

-- The path of an element of a list.
def elementPath (validator : Validator) (path : String) (index : Nat) : String :=
  if validator.config.indexArrayPaths then path ++ "[" ++ Text.natText index ++ "]" else path

variable {rule : Rule} {name : String}

theorem reported_field (validator : Validator) (data : Json) :
    validator.reported data ⟨[(name, rule)]⟩ [] =
      (validator.run data []).place ⟨rule, data.field name, data, name⟩ := by
  rw [reported_eq, RuleSet.places, List.map_singleton, List.flatMap_singleton]

theorem field_singleton (name : String) (value : Json) :
    (Json.obj [(name, value)]).field name = value := by
  simp [Json.field, Json.get?, Members.get?]

theorem place_behind_path (config : Config) (hrule : rule.Every Check.IsBuiltin) (path : String)
    (value record data inner : Json) :
    (({ config } : Validator).run data []).place ⟨rule, value, record, path⟩ =
      ((({ config } : Validator).run inner []).place ⟨rule, value, record, ""⟩).map
        (FieldError.behind path) := by
  have hmoved : Place.moved (path ++ ·) ⟨rule, value, record, ""⟩ =
      ⟨rule, value, record, path⟩ := by
    simp [Place.moved]
  rw [← hmoved, place_behind config path data inner ⟨rule, value, record, ""⟩ hrule]

-- Every error of a field stands at its path or inside it.
theorem prefix_of_mem_reported (config : Config) (hrule : rule.Every Check.IsBuiltin)
    {data : Json} {e : FieldError}
    (he : e ∈ ({ config } : Validator).reported data ⟨[(name, rule)]⟩ []) :
    name.toList <+: e.field.toList := by
  rw [reported_field, place_behind_path config hrule name _ _ data data] at he
  obtain ⟨inner, -, rfl⟩ := List.mem_map.mp he
  rw [FieldError.behind, String.toList_append]
  exact List.prefix_append _ _

-- What a list reports is what its elements report, each by itself and then at its own path.
theorem reported_list (config : Config) (hrule : rule.Every Check.IsBuiltin)
    (hcompared : rule.compared = []) (items : List Json) :
    ({ config } : Validator).reported (.obj [(name, .arr items)]) ⟨[(name, rule.list)]⟩ [] =
      items.zipIdx.flatMap fun (item, index) =>
        (({ config } : Validator).reported (.obj [(name, item)]) ⟨[(name, rule)]⟩ []).map
          (FieldError.rebase name (({ config } : Validator).elementPath name index)) := by
  rw [reported_field, field_singleton, Run.place_list]
  refine List.flatMap_congr fun (item, index) _ => ?_
  dsimp only
  have hlisted (path : String) := place_behind_path config hrule path item .null
    (.obj [(name, .arr items)]) (.obj [(name, item)])
  have halone := place_behind_path config hrule name item (.obj [(name, item)])
    (.obj [(name, item)]) (.obj [(name, item)])
  have hrebase (path : String) : FieldError.rebase name path ∘ FieldError.behind name =
      FieldError.behind path :=
    funext fun e => e.rebase_behind name path
  rw [reported_field, field_singleton, hlisted, halone, List.map_map, hrebase,
    Run.place_of_compared _ hrule hcompared item .null (.obj [(name, item)])]
  rfl

-- A value that is not there is reported where one is asked for.
theorem reported_absent (config : Config) (hrule : rule.LooksFirst) {data : Json}
    (habsent : data.field name = .null) :
    ({ config } : Validator).reported data ⟨[(name, rule)]⟩ [] =
      if rule.required then [config.resolve [] name RuleOf.requiredName .missing] else [] := by
  rw [reported_field, habsent]
  cases hrequired : rule.required with
  | true => exact Run.place_of_blank hrule hrequired rfl
  | false =>
      have hskip : Place.skipped ⟨rule, .null, data, name⟩ = true := by
        simp [Place.skipped, hrequired, Json.isNull]
      rw [Run.place_eq, if_pos hskip]
      rfl

theorem validateJson_eq [Engine] (validator : Validator) (data schema : Json) (overrides : Texts) :
    validator.validateJson data schema overrides =
      (validator.registry.compileJson schema).map
        (validator.validateCompiled data · overrides) := by
  simp only [validateJson, validate, compile, Registry.compileJson, bind, Except.bind]
  cases Schema.ofJson schema with
  | error e => rfl
  | ok schema => cases validator.registry.compile schema <;> rfl

-- A rule says of the elements of a list what it says of them one by one. The rule of the list
-- compiles as that of the elements does, and a list reports the errors of its elements in
-- order, at the paths of the elements. Elements that are null are not there.
theorem validateJson_elements [Engine] (name : String) {rule : Json} (hnull : rule ≠ .null)
    (hobject : rule ≠ .str "object") (hcompare : rule.Compareless) :
    (∀ error, Registry.compileJson {} (.obj [(name, rule.listRule)]) = .error error ↔
        Registry.compileJson {} (.obj [(name, rule)]) = .error error) ∧
      (∀ (config : Config) (items : List Json),
        ({ config } : Validator).validateJson (.obj [(name, .arr items)])
            (.obj [(name, rule.listRule)]) [] =
          (Registry.compileJson {} (.obj [(name, rule)])).map fun rules =>
            ErrorList.ofList? (items.zipIdx.flatMap fun (item, index) =>
              (({ config } : Validator).reported (.obj [(name, item)]) rules []).map
                (FieldError.rebase name (({ config } : Validator).elementPath name index)))) ∧
      ∀ rules, Registry.compileJson {} (.obj [(name, rule)]) = .ok rules → ∀ config : Config,
        (∀ data, ∀ e ∈ ({ config } : Validator).reported data rules [],
          name.toList <+: e.field.toList) ∧
        ∀ data : Json, data.field name = .null →
          ({ config } : Validator).reported data rules [] =
            if rules.fields.any (·.2.required) then
              [config.resolve [] name RuleOf.requiredName .missing]
            else [] := by
  simp only [validateJson_eq, Registry.compileJson_list name hnull hobject,
    Registry.compileJson_field]
  cases hspec : Spec.ofJson name rule with
  | error e => simp [bind, Except.bind, Except.map]
  | ok spec =>
      cases helement : Registry.compileRule {} name spec with
      | error e => simp [bind, Except.bind, Except.map, helement]
      | ok element =>
          have hbuiltin : element.Every Check.IsBuiltin :=
            Registry.compileRule_every (fun _ _ _ hbuilt => hbuilt.isBuiltin) helement
          have hcompared := Registry.compared_eq_nil helement (hcompare.compare? hspec)
          have hfirst := Registry.compileRule_looksFirst rfl helement
          simp only [bind, Except.bind, helement]
          refine ⟨by simp, fun config items => ?_, ?_⟩
          · rw [Except.map, Except.map, ← reported_list config hbuiltin hcompared,
              validateCompiled_eq, reported_eq]
          · rintro rules ⟨⟩ config
            refine ⟨fun data e he => prefix_of_mem_reported config hbuiltin he, ?_⟩
            intro data habsent
            simp only [reported_absent config hfirst habsent, List.any_cons, List.any_nil,
              Bool.or_false]

open scoped Regex

theorem validateJson_elements_ages :
    (Json.str "required|int" ≠ .null ∧ Json.str "required|int" ≠ .str "object" ∧
        (Json.str "required|int").Compareless) ∧
      ({ config := { indexArrayPaths := true } } : Validator).validateJson
          (.obj [("ages", .arr [.num (.int 7 (by decide)), .null, .str "x"])])
          (.obj [("ages", (Json.str "required|int").listRule)]) [] =
        .ok (some ⟨⟨"missing_field", "ages[1]", "required"⟩,
          [⟨"invalid", "ages[2]", "should be an integer"⟩]⟩) := by
  have hnull : Json.str "required|int" ≠ .null := by simp
  have hobject : Json.str "required|int" ≠ .str "object" := by simp
  have hcompare : (Json.str "required|int").Compareless := fun members h => by cases h
  have hage : Registry.compileRule {} "ages" (.pipe "required|int") =
      .ok (.ofChecks [("required", .leaf .required), ("int", .leaf (.int {}))]) := by
    rw [Registry.compileRule]
    rfl
  have hrules : Registry.compileJson {} (.obj [("ages", .str "required|int")]) =
      .ok ⟨[("ages", .ofChecks [("required", .leaf .required), ("int", .leaf (.int {}))])]⟩ := by
    rw [Registry.compileJson_field, Spec.ofJson]
    simp only [bind, Except.bind, hage]
  obtain ⟨-, hruns, -⟩ := validateJson_elements "ages" hnull hobject hcompare
  refine ⟨⟨hnull, hobject, hcompare⟩, ?_⟩
  rw [hruns, hrules]
  rfl

end Validator

end Rulebook
