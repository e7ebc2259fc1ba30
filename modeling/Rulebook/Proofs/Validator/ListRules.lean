import Rulebook.Proofs.Compile.Arrangement
import Rulebook.Proofs.Validator.Descriptor
import Rulebook.Proofs.Validator.Elements
import Rulebook.Regex.Engine

namespace Rulebook

open Outcome

namespace Registry

-- Two rules that no schema tells apart, whatever fields stand around the rule.
def SameOutcome [Engine] (registry : Registry) (rule other : Json) : Prop :=
  ∀ before field after,
    registry.compileJson (.obj (before ++ (field, rule) :: after)) =
      registry.compileJson (.obj (before ++ (field, other) :: after))

-- What becomes of a field when it is read, and when it is compiled.
def outcome [Engine] (registry : Registry) (field : String × Json) :
    Except SetupError (Except SetupError (String × Rule)) :=
  (Spec.ofJson field.1 field.2).map fun spec =>
    (registry.compileRule field.1 spec).map (field.1, ·)

variable {registry : Registry}

theorem mapM_outcome [Engine] (members : List (String × Json)) :
    members.mapM registry.outcome =
      (Schema.ofMembers members).map
        (List.map fun field => (registry.compileRule field.1 field.2).map (field.1, ·)) := by
  induction members with
  | nil => rfl
  | cons member rest ih =>
      obtain ⟨name, value⟩ := member
      rw [List.mapM_cons, ih, Schema.ofMembers, outcome]
      cases Spec.ofJson name value with
      | error e => rfl
      | ok spec => cases Schema.ofMembers rest <;> rfl

-- All fields are read before the first one is compiled.
theorem compileJson_obj [Engine] (members : List (String × Json)) :
    registry.compileJson (.obj members) = (do
      let outcomes ← members.mapM registry.outcome
      let fields ← outcomes.mapM id
      .ok ⟨fields⟩) := by
  rw [mapM_outcome, compileJson, Schema.ofJson]
  cases Schema.ofMembers members with
  | error e => rfl
  | ok fields =>
      simp only [Except.map, bind, Except.bind, compile_eq_parts, compileParts, List.mapM_map,
        Function.comp_def, id]

theorem sameOutcome_of_outcome_eq [Engine] {rule other : Json}
    (h : ∀ field, registry.outcome (field, rule) = registry.outcome (field, other)) :
    registry.SameOutcome rule other := by
  intro before field after
  rw [compileJson_obj, compileJson_obj, List.mapM_append, List.mapM_append, List.mapM_cons,
    List.mapM_cons, h]

end Registry

namespace Builtin

-- A rule with a type of its own goes before the type of the elements.
theorem elementRule_of_descriptor {itemType : Option Json} {rule : Json}
    (hrule : isDescriptor rule = true) (hobject : itemType ≠ some (.str "object")) :
    elementRule itemType (some rule) = some rule := by
  unfold elementRule
  split <;> simp_all

theorem elementRule_none_of_schema {rule : Json} (hrule : isDescriptor rule = false) :
    elementRule none (some rule) = some (objectRule (some rule)) := by
  rw [elementRule, hrule, if_neg Bool.false_ne_true]

end Builtin

namespace Args

theorem count_congr {args other : Args} {name : String} (hrule : args.rule = other.rule)
    (hget : args.get? name = other.get? name) : args.count name = other.count name := by
  simp only [count, hget, refuse, hrule]

theorem eq_bind_of_count_eq_ok {args : Args} {name : String} {count : Option Nat}
    (h : args.count name = .ok count) : count = (args.get? name).bind Json.count? := by
  rw [Args.count] at h
  cases hget : args.get? name with
  | none => simpa [hget] using h.symm
  | some value =>
      simp only [hget] at h
      cases hvalue : value.count? <;> simp_all [refuse]

end Args

namespace Json

-- An option that is there and is not null.
def given (option : Option Json) : Option Json :=
  option.filter (!·.isNull)

theorem bind_given (option : Option Json) : (given option).bind count? = option.bind count? := by
  rcases option with _ | value
  · rfl
  · cases value <;> rfl

-- The rule of a list by its options, which may stand in any order: the type of its elements,
-- the rule for them, and all that is not about the elements.
structure ListRule (itemType rule : Option Json) (others : String → Option Json)
    (members : List (String × Json)) : Prop where
  type : Members.get? "type" members = some (.str "array")
  itemType : Members.get? "itemType" members = itemType
  rule : Members.get? "rule" members = rule
  others : ∀ name, name ≠ "type" → name ≠ "itemType" → name ≠ "rule" →
    Members.get? name members = others name

end Json

namespace Json.ListRule

variable {itemType rule : Option Json} {others : String → Option Json}
  {members : List (String × Json)}

-- The descriptor that is read, unless its flag is at fault.
def descriptor (members : List (String × Json)) (required : Bool) : Descriptor :=
  { kind := "array", required
    options := members.filter fun member => Descriptor.isOptionName member.1 }

theorem ofJson (h : ListRule itemType rule others members) (field : String) :
    Spec.ofJson field (.obj members) =
      (Descriptor.readRequired field members).map fun required =>
        .descriptor (descriptor members required) := by
  have hkind : Descriptor.readKind field members = .ok "array" := by
    have hblank : Text.allBlank "array" = false := by decide
    have htrim : Text.trim "array" = "array" := by decide
    simp [Descriptor.readKind, h.type, hblank, htrim]
  rw [Spec.ofJson, Descriptor.ofMembers, hkind]
  simp only [bind, Except.bind]
  cases Descriptor.readRequired field members <;> rfl

theorem readRequired_eq (h : ListRule itemType rule others members) {itemType' rule' : Option Json}
    {members' : List (String × Json)} (h' : ListRule itemType' rule' others members')
    (field : String) :
    Descriptor.readRequired field members = Descriptor.readRequired field members' := by
  rw [Descriptor.readRequired, Descriptor.readRequired,
    h.others "required" (by decide) (by decide) (by decide),
    h'.others "required" (by decide) (by decide) (by decide)]

variable (required : Bool)

theorem get?_descriptor {name : String} (hname : Descriptor.isOptionName name = true)
    (field : String) :
    ((descriptor members required).args field).get? name = given (Members.get? name members) := by
  rw [Args.get?, Descriptor.args, present?, descriptor, Members.get?_filter hname, given]

theorem get?_bound (h : ListRule itemType rule others members) (field : String) {name : String}
    (hname : name = "min" ∨ name = "max") :
    ((descriptor members required).args field).get? name = given (others name) := by
  rcases hname with rfl | rfl <;>
    rw [get?_descriptor required (by decide), h.others _ (by decide) (by decide) (by decide)]

theorem parts_eq (h : ListRule itemType rule others members) (field : String) :
    Entry.parts ((descriptor members required).args field) (.builtin .array) =
      match Builtin.elementRule (given itemType) (given rule) with
      | some element => (Spec.ofJson field element).map fun spec => [(field, spec)]
      | none => .ok [] := by
  rw [Entry.parts, Builtin.parts, get?_descriptor required (by decide),
    get?_descriptor required (by decide), h.itemType, h.rule]
  rfl

-- Rules of lists that have the same rule for their elements compile alike.
theorem outcome_eq [Engine] (h : ListRule itemType rule others members)
    {itemType' rule' : Option Json}
    {members' : List (String × Json)} (h' : ListRule itemType' rule' others members')
    (helement : Builtin.elementRule (given itemType) (given rule) =
      Builtin.elementRule (given itemType') (given rule')) (field : String) :
    Registry.outcome {} (field, .obj members) = Registry.outcome {} (field, .obj members') := by
  rw [Registry.outcome, Registry.outcome, h.ofJson, h'.ofJson, h.readRequired_eq h']
  cases Descriptor.readRequired field members' with
  | error e => rfl
  | ok required =>
      have hparts := (h.parts_eq required field).trans
        (helement ▸ (h'.parts_eq required field).symm)
      have hcount {name : String} (hname : name = "min" ∨ name = "max") :
          ((descriptor members required).args field).count name =
            ((descriptor members' required).args field).count name :=
        Args.count_congr rfl ((h.get?_bound required field hname).trans
          (h'.get?_bound required field hname).symm)
      have hbuild (rules : List (String × Rule)) :
          Entry.build ((descriptor members required).args field) rules (.builtin .array) =
            Entry.build ((descriptor members' required).args field) rules (.builtin .array) := by
        simp only [Entry.build, Builtin.build, hcount (.inl rfl), hcount (.inr rfl)]
      have hentry : Registry.lookup {} "array" = .ok (.builtin .array) := rfl
      have hpresence : Registry.buildPresence {} field (descriptor members required) =
          Registry.buildPresence {} field (descriptor members' required) := rfl
      have hkind (members : List (String × Json)) :
          (descriptor members required).kind = "array" := rfl
      simp only [Except.map, Registry.compileRule_descriptor, hkind, hentry, hpresence, hparts,
        hbuild, bind, Except.bind]

-- What a rule of lists of objects compiles to: the rules of the fields of the objects, the
-- bounds, and perhaps the check for the presence of the list.
theorem exists_of_compileRule [Engine] {schema : List (String × Json)} {field : String}
    {spec : Spec}
    {rule : Rule} (h : ListRule (some (.str "object")) (some (.obj schema)) others members)
    (hspec : Spec.ofJson field (.obj members) = .ok spec)
    (hrule : Registry.compileRule {} field spec = .ok rule) :
    ∃ rules presence, Registry.compileJson {} (.obj schema) = .ok rules ∧
      (presence = [] ∨ presence = [(RuleOf.requiredName, .leaf .required)]) ∧
      rule = .ofChecks (("array", .array ((others "min").bind count?) ((others "max").bind count?)
        (some (.ofChecks [("object", .object (some rules.fields))]))) :: presence) := by
  obtain ⟨required, -, rfl⟩ := map_eq_ok_iff.mp (h.ofJson field ▸ hspec)
  obtain ⟨entry, parts, rules, check, presence, hentry, hparts, hrules, hbuild, hpresence, rfl⟩ :=
    Registry.compileRule_descriptor_cases hrule
  obtain rfl : Entry.builtin .array = entry := Option.some.inj hentry
  have helement : Builtin.elementRule (given (some (.str "object"))) (given (some (.obj schema))) =
      some (Builtin.objectRule (some (.obj schema))) := rfl
  rw [h.parts_eq, helement] at hparts
  simp only [Spec.ofJson_objectRule, Except.map] at hparts
  obtain rfl := Except.ok.inj hparts
  obtain ⟨⟨name, element⟩, rest, ⟨-, hobject⟩, hrest, rfl⟩ :=
    List.forall₂_cons_left_iff.mp (Registry.compileParts_eq_ok_iff.mp hrules)
  obtain rfl := List.forall₂_nil_left_iff.mp hrest
  rw [Registry.compileRule_object _ rfl] at hobject
  obtain ⟨read, hread, hobject⟩ := bind_eq_ok_iff.mp hobject
  obtain ⟨inner, hinner, hobject⟩ := bind_eq_ok_iff.mp hobject
  obtain rfl := Except.ok.inj hobject
  obtain ⟨min, hmin, hbuild⟩ := bind_eq_ok_iff.mp hbuild
  obtain ⟨max, hmax, hbuild⟩ := bind_eq_ok_iff.mp hbuild
  obtain rfl := Except.ok.inj hbuild
  have hcount {name : String} {count : Option Nat} (hname : name = "min" ∨ name = "max")
      (hread : ((descriptor members required).args field).count name = .ok count) :
      count = (others name).bind count? := by
    rw [Args.eq_bind_of_count_eq_ok hread, h.get?_bound required field hname, bind_given]
  obtain rfl := hcount (.inl rfl) hmin
  obtain rfl := hcount (.inr rfl) hmax
  refine ⟨inner, presence, bind_eq_ok_iff.mpr ⟨read, hread, hinner⟩, ?_, rfl⟩
  rw [Registry.buildPresence_eq_ok (fun _ => rfl)] at hpresence
  obtain rfl := Except.ok.inj hpresence
  split_ifs
  · exact .inr rfl
  · exact .inl rfl

end Json.ListRule

namespace Run

theorem brokenLength_eq_none_iff {min max : Option Nat} {length : Nat} :
    brokenLength min max length = none ↔
      (∀ bound ∈ min, bound ≤ length) ∧ ∀ bound ∈ max, length ≤ bound := by
  have hfilter (bound : Option Nat) (p : Nat → Bool) :
      bound.filter p = none ↔ ∀ n ∈ bound, p n = false := by
    simp [Option.filter_eq_none_iff]
  simp only [brokenLength, Option.or_eq_none_iff, Option.map_eq_none_iff, hfilter,
    decide_eq_false_iff_not, Nat.not_lt]
  exact and_comm

-- A list that is there and within the bounds is left to the rule of its elements.
theorem place_list_within (run : Run) {min max : Option Nat} {element : Rule}
    {presence : List (String × Check)} {items : List Json}
    (hpresence : presence = [] ∨ presence = [(RuleOf.requiredName, .leaf .required)])
    (hitems : (RuleOf.ofChecks (("array", .array min max (some element)) :: presence)).required →
      items ≠ [])
    (hlength : brokenLength min max items.length = none) (record : Json) (path : String) :
    run.place ⟨.ofChecks (("array", .array min max (some element)) :: presence), .arr items,
        record, path⟩ =
      items.zipIdx.flatMap fun (item, index) =>
        run.place ⟨element, item, .null, run.elementPath path index⟩ := by
  have hcheck :
      (run.check "array" (.arr items) record path (.array min max (some element))).getD [] =
        items.zipIdx.flatMap fun (item, index) =>
          run.place ⟨element, item, .null, run.elementPath path index⟩ := by
    simp only [check, hlength, ofParts_getD, place]
  have hskip : Place.skipped ⟨.ofChecks (("array", .array min max (some element)) :: presence),
      .arr items, record, path⟩ = false := rfl
  rw [place_eq, hskip, if_neg Bool.false_ne_true]
  rcases hpresence with rfl | rfl
  · rw [RuleOf.checks_ofChecks_singleton, List.findSome?_singleton, hcheck]
  · have hblank : (Json.arr items).isBlank = false := by
      simpa [Json.isBlank] using hitems rfl
    have hasked : run.check RuleOf.requiredName (.arr items) record path (.leaf .required) =
        none := by
      simp [check, Leaf.verdict, hblank, Verdict.when, ofVerdict]
    have hname : "array" ≠ RuleOf.requiredName := by decide
    rw [RuleOf.checks_ofChecks_pair hname rfl, List.findSome?_cons, hasked]
    simp only [List.findSome?_singleton, hcheck]

end Run

namespace Validator

-- What is reported for an element of a list of objects: elements that are null are not there,
-- objects have the errors of their schema, and nothing else is an object.
def elementErrors (validator : Validator) (rules : RuleSet) (path : String) :
    Json → List FieldError
  | .null => []
  | .obj members => (validator.reported (.obj members) rules []).map (FieldError.under path)
  | _ => [validator.config.resolve [] path "object" .notObject]

theorem place_objectRule (config : Config) {rules : RuleSet}
    (hrules : ∀ field ∈ rules.fields, field.2.Every Check.IsBuiltin) (data item : Json)
    (path : String) :
    (({ config } : Validator).run data []).place
        ⟨.ofChecks [("object", .object (some rules.fields))], item, .null, path⟩ =
      ({ config } : Validator).elementErrors rules path item := by
  cases item with
  | obj members =>
      rw [Run.place_object, elementErrors, reported_eq, RuleSet.places, List.flatMap_map,
        List.map_flatMap]
      refine List.flatMap_congr fun field hfield => ?_
      exact place_behind config (path ++ ".") _ _ ⟨field.2, _, _, field.1⟩ (hrules field hfield)
  | _ => rfl

-- The ways to write the rule of the elements of a list agree. A schema for objects may be given
-- with the type of the elements or without it, and a rule with a type of its own may be given as
-- either option or beside a type that is then not looked at. A list of objects within its bounds
-- reports what its elements are reported for, in their order.
theorem compileJson_listRule [Engine] (others : String → Option Json) :
    (∀ {schema members members' : List (String × Json)}, Members.get? "type" schema = none →
        Json.ListRule none (some (.obj schema)) others members →
        Json.ListRule (some (.str "object")) (some (.obj schema)) others members' →
        Registry.SameOutcome {} (.obj members) (.obj members')) ∧
      (∀ {rule : List (String × Json)} {itemType : Json}
          {members members' members'' : List (String × Json)}, Members.has "type" rule = true →
        itemType ≠ .null → itemType ≠ .str "object" →
        Json.ListRule (some itemType) (some (.obj rule)) others members →
        Json.ListRule none (some (.obj rule)) others members' →
        Json.ListRule (some (.obj rule)) none others members'' →
        Registry.SameOutcome {} (.obj members) (.obj members') ∧
          Registry.SameOutcome {} (.obj members') (.obj members'')) ∧
      ∀ {schema members : List (String × Json)} {field : String} {spec : Spec} {rule : Rule},
        Json.ListRule (some (.str "object")) (some (.obj schema)) others members →
        Spec.ofJson field (.obj members) = .ok spec →
        Registry.compileRule {} field spec = .ok rule →
        ∃ rules, Registry.compileJson {} (.obj schema) = .ok rules ∧
          ∀ (config : Config) (data record : Json) (path : String) (items : List Json),
            (∀ min ∈ (others "min").bind Json.count?, min ≤ items.length) →
            (∀ max ∈ (others "max").bind Json.count?, items.length ≤ max) →
            (rule.required = true → items ≠ []) →
            (({ config } : Validator).run data []).place ⟨rule, .arr items, record, path⟩ =
              items.zipIdx.flatMap fun (item, index) =>
                ({ config } : Validator).elementErrors rules
                  (({ config } : Validator).elementPath path index) item := by
  refine ⟨?_, ?_, ?_⟩
  · intro schema members members' htype h h'
    have hplain : Builtin.isDescriptor (.obj schema) = false := by
      rw [Builtin.isDescriptor, Json.get?, htype]
      rfl
    exact Registry.sameOutcome_of_outcome_eq
      (h.outcome_eq h' (Builtin.elementRule_none_of_schema hplain))
  · intro rule itemType members members' members'' htype hnull hobject h h' h''
    have hgiven : Json.given (some itemType) = some itemType := by
      cases itemType <;> first | rfl | exact absurd rfl hnull
    have hboth : Builtin.elementRule (some itemType) (some (.obj rule)) = some (.obj rule) :=
      Builtin.elementRule_of_descriptor htype fun h => hobject (Option.some.inj h)
    have halone : Builtin.elementRule none (some (.obj rule)) = some (.obj rule) :=
      Builtin.elementRule_of_descriptor htype (Option.some_ne_none _ ·.symm)
    refine ⟨Registry.sameOutcome_of_outcome_eq (h.outcome_eq h' ?_),
      Registry.sameOutcome_of_outcome_eq (h'.outcome_eq h'' halone)⟩
    rw [hgiven]
    exact hboth.trans halone.symm
  · intro schema members field spec rule h hspec hrule
    obtain ⟨rules, presence, hrules, hpresence, rfl⟩ := h.exists_of_compileRule hspec hrule
    refine ⟨rules, hrules, fun config data record path items hmin hmax hitems => ?_⟩
    obtain ⟨read, -, hcompile⟩ := bind_eq_ok_iff.mp hrules
    have hbuiltin : ∀ field ∈ rules.fields, field.2.Every Check.IsBuiltin := fun field hfield =>
      Registry.compile_every (fun _ _ _ hbuilt => hbuilt.isBuiltin) hcompile hfield
    rw [Run.place_list_within _ hpresence hitems
      (Run.brokenLength_eq_none_iff.mpr ⟨hmin, hmax⟩)]
    refine List.flatMap_congr ?_
    rintro ⟨item, index⟩ -
    exact place_objectRule config hbuiltin data item _

end Validator

-- A team is a list of one person at least, whose ages are asked for.
namespace Team

def others (name : String) : Option Json :=
  if name = "max" then some (.num (.int 12 (by decide))) else none

def person : List (String × Json) :=
  [("age", .str "required|int")]

def nickname : List (String × Json) :=
  [("type", .str "string"), ("max", .num (.int 20 (by decide)))]

def members (itemType rule : Option Json) : List (String × Json) :=
  ("type", .str "array") :: ("max", .num (.int 12 (by decide))) ::
    ((itemType.map ("itemType", ·)).toList ++ (rule.map ("rule", ·)).toList)

theorem listRule (itemType rule : Option Json) :
    Json.ListRule itemType rule others (members itemType rule) := by
  refine ⟨rfl, ?_, ?_, fun name htype hitemType hrule => ?_⟩
  · cases itemType <;> cases rule <;> simp [members, Members.get?]
  · cases itemType <;> cases rule <;> simp [members, Members.get?]
  · cases itemType <;> cases rule <;>
      simp [members, Members.get?, others, htype.symm, hitemType.symm, hrule.symm, eq_comm]

def ageRule : Rule :=
  .ofChecks [("required", .leaf .required), ("int", .leaf (.int {}))]

def rule : Rule :=
  .ofChecks [("array", .array none (some 12) (some (.ofChecks [("object",
    .object (some [("age", ageRule)]))])))]

def spec : Spec :=
  .descriptor (Json.ListRule.descriptor (members (some (.str "object")) (some (.obj person))) false)

theorem ofJson : Spec.ofJson "team"
    (.obj (members (some (.str "object")) (some (.obj person)))) = .ok spec := by
  rw [(listRule _ _).ofJson]
  rfl

theorem compileRule_age [Engine] :
    Registry.compileRule {} "age" (.pipe "required|int") = .ok ageRule := by
  rw [Registry.compileRule]
  rfl

theorem compileRule [Engine] : Registry.compileRule {} "team" spec = .ok rule := by
  have hentry : Registry.lookup {} "array" = .ok (.builtin .array) := rfl
  have hobject : Registry.compileRule {} "team"
      (.descriptor { kind := "object", options := [("rule", .obj person)] }) =
        .ok (.ofChecks [("object", .object (some [("age", ageRule)]))]) := by
    have hread : Schema.ofJson (.obj person) = .ok ⟨[("age", .pipe "required|int")]⟩ := rfl
    rw [Registry.compileRule_object _ rfl, hread]
    simp only [bind, Except.bind, Registry.compile_eq_parts, Registry.compileParts,
      List.mapM_cons, compileRule_age]
    rfl
  have hparts : Entry.parts ((Json.ListRule.descriptor
      (members (some (.str "object")) (some (.obj person))) false).args "team")
        (.builtin .array) =
      .ok [("team", .descriptor { kind := "object", options := [("rule", .obj person)] })] := by
    rw [(listRule _ _).parts_eq]
    rfl
  have hkind : (Json.ListRule.descriptor
      (members (some (.str "object")) (some (.obj person))) false).kind = "array" := rfl
  rw [spec, Registry.compileRule_descriptor, hkind, hentry]
  simp only [bind, Except.bind, hparts, Registry.compileParts, List.mapM_cons, hobject]
  rfl

end Team

open scoped Regex

theorem Validator.compileJson_listRule_team :
    (Members.get? "type" Team.person = none ∧
      Json.ListRule none (some (.obj Team.person)) Team.others
        (Team.members none (some (.obj Team.person))) ∧
      Json.ListRule (some (.str "object")) (some (.obj Team.person)) Team.others
        (Team.members (some (.str "object")) (some (.obj Team.person))) ∧
      Members.has "type" Team.nickname = true ∧
      Json.ListRule (some (.str "string")) (some (.obj Team.nickname)) Team.others
        (Team.members (some (.str "string")) (some (.obj Team.nickname)))) ∧
      Registry.SameOutcome {} (.obj (Team.members none (some (.obj Team.person))))
        (.obj (Team.members (some (.str "object")) (some (.obj Team.person)))) ∧
      Registry.SameOutcome {}
        (.obj (Team.members (some (.str "string")) (some (.obj Team.nickname))))
        (.obj (Team.members none (some (.obj Team.nickname)))) ∧
      (Validator.run { config := { indexArrayPaths := true } } .null []).place
          ⟨Team.rule, .arr [.null, .str "Ada", .obj []], .null, "team"⟩ =
        [⟨"invalid", "team[1]", "should be an object"⟩,
          ⟨"missing_field", "team[2].age", "required"⟩] := by
  obtain ⟨hschema, hrule, hruns⟩ := compileJson_listRule Team.others
  have hperson : Members.get? "type" Team.person = none := rfl
  have hnickname : Members.has "type" Team.nickname = true := rfl
  have hnull : Json.str "string" ≠ .null := by simp
  have hobject : Json.str "string" ≠ .str "object" := by simp
  refine ⟨⟨hperson, Team.listRule _ _, Team.listRule _ _, hnickname, Team.listRule _ _⟩,
    hschema hperson (Team.listRule _ _) (Team.listRule _ _),
    (hrule hnickname hnull hobject (Team.listRule _ _) (Team.listRule _ _)
      (Team.listRule _ _)).1, ?_⟩
  obtain ⟨rules, hrules, hplace⟩ := hruns (Team.listRule _ _) Team.ofJson Team.compileRule
  have hmin : ∀ min ∈ (Team.others "min").bind Json.count?, min ≤ 3 := by
    rintro min ⟨⟩
  have hmax : ∀ max ∈ (Team.others "max").bind Json.count?, 3 ≤ max := by
    rintro max ⟨⟩
    decide
  have hcompiled : rules = ⟨[("age", Team.ageRule)]⟩ := by
    rw [Team.person, Registry.compileJson_field] at hrules
    simp only [Spec.ofJson, bind, Except.bind, Team.compileRule_age] at hrules
    exact (Except.ok.inj hrules).symm
  have hteam := hplace { indexArrayPaths := true } .null .null "team" [.null, .str "Ada", .obj []]
    hmin hmax fun _ => List.cons_ne_nil _ _
  rw [hteam, hcompiled]
  rfl

end Rulebook
