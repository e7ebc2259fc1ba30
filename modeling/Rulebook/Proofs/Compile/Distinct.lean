import Rulebook.Proofs.Compile.Provenance
import Rulebook.Proofs.Json.Members

namespace Rulebook

open Outcome

-- The options of a rule repeat no name in any object inside them.
def Spec.Distinct : Spec → Prop
  | .descriptor d => ∀ option ∈ d.options, option.2.Distinct
  | _ => True

namespace Schema

-- Fields with names of their own, under rules that repeat no name either.
structure DistinctFields (fields : List (String × Spec)) : Prop where
  names : (fields.map (·.1)).Nodup
  rules : ∀ field ∈ fields, field.2.Distinct

def Distinct (schema : Schema) : Prop :=
  DistinctFields schema.fields

theorem ofMembers_eq_ok_iff {members : List (String × Json)} {fields : List (String × Spec)} :
    ofMembers members = .ok fields ↔
      List.Forall₂ (fun member field => field.1 = member.1 ∧
        Spec.ofJson member.1 member.2 = .ok field.2) members fields := by
  induction members generalizing fields with
  | nil => simp [ofMembers, eq_comm]
  | cons member rest ih =>
      obtain ⟨name, value⟩ := member
      rw [ofMembers, bind_eq_ok_iff, List.forall₂_cons_left_iff]
      constructor
      · rintro ⟨spec, hspec, h⟩
        obtain ⟨others, hothers, h⟩ := bind_eq_ok_iff.mp h
        cases h
        exact ⟨(name, spec), others, ⟨rfl, hspec⟩, ih.mp hothers, rfl⟩
      · rintro ⟨⟨key, spec⟩, others, ⟨rfl, hspec⟩, hothers, rfl⟩
        exact ⟨spec, hspec, bind_eq_ok_iff.mpr ⟨others, ih.mpr hothers, rfl⟩⟩

end Schema

theorem Spec.ofJson_distinct {field : String} {value : Json} {spec : Spec}
    (hvalue : value.Distinct) (hread : Spec.ofJson field value = .ok spec) : spec.Distinct := by
  cases hvalue with
  | str source =>
      cases hread
      trivial
  | arr hitems =>
      cases hread
      trivial
  | obj hnames hvalues =>
      obtain ⟨d, hd, rfl⟩ := map_eq_ok_iff.mp hread
      obtain ⟨kind, -, hd⟩ := bind_eq_ok_iff.mp hd
      obtain ⟨required, -, hd⟩ := bind_eq_ok_iff.mp hd
      cases hd
      exact fun option hoption => hvalues option (List.mem_of_mem_filter hoption)
  | null => cases hread
  | bool b => cases hread
  | num n => cases hread

theorem Schema.ofJson_distinct {value : Json} {schema : Schema} (hvalue : value.Distinct)
    (hread : Schema.ofJson value = .ok schema) : schema.Distinct := by
  cases hvalue with
  | obj hnames hvalues =>
      obtain ⟨fields, hfields, rfl⟩ := map_eq_ok_iff.mp hread
      have hrel := ofMembers_eq_ok_iff.mp hfields
      refine ⟨?_, fun field hfield => ?_⟩
      · rwa [names_eq hrel]
      · obtain ⟨member, hmember, -, hspec⟩ := exists_of_mem_right hrel hfield
        exact Spec.ofJson_distinct (hvalues member hmember) hspec
  | null => cases hread
  | bool b => cases hread
  | num n => cases hread
  | str s => cases hread
  | arr hitems => cases hread

namespace Builtin

theorem objectRule_distinct {schema : Option Json} (hschema : ∀ value ∈ schema, value.Distinct) :
    (objectRule schema).Distinct := by
  cases schema with
  | none => exact .obj (by simp) (by simpa using Json.Distinct.str "object")
  | some value =>
      have hvalue := hschema value rfl
      exact .obj (by simp) (by simpa using ⟨Json.Distinct.str "object", hvalue⟩)

-- The rule of the elements comes from the options, if not as it stands, then inside the
-- rule of an object.
theorem elementRule_distinct {itemType rule : Option Json} {element : Json}
    (hitem : ∀ value ∈ itemType, value.Distinct) (hrule : ∀ value ∈ rule, value.Distinct)
    (helement : elementRule itemType rule = some element) : element.Distinct := by
  rcases elementRule_cases helement with h | h | rfl
  · exact hitem element h
  · exact hrule element h
  · exact objectRule_distinct hrule

theorem parts_distinct {builtin : Builtin} {args : Args} {parts : List (String × Spec)}
    (hargs : ∀ option ∈ args.options, option.2.Distinct) (hparts : builtin.parts args = .ok parts) :
    Schema.DistinctFields parts := by
  have hoption (name : String) : ∀ value ∈ args.get? name, value.Distinct :=
    fun value hvalue => Json.Distinct.of_present? hargs hvalue
  have hnone : Schema.DistinctFields [] := ⟨List.nodup_nil, by simp⟩
  cases builtin
  case object =>
    simp only [Builtin.parts] at hparts
    split at hparts
    · rename_i rule hrule
      obtain ⟨schema, hschema, rfl⟩ := map_eq_ok_iff.mp hparts
      exact Schema.ofJson_distinct (hoption "rule" rule hrule) hschema
    · cases hparts
      exact hnone
  case array =>
    simp only [Builtin.parts] at hparts
    split at hparts
    · rename_i element helement
      obtain ⟨spec, hspec, rfl⟩ := map_eq_ok_iff.mp hparts
      have hdistinct := elementRule_distinct (hoption "itemType") (hoption "rule") helement
      exact ⟨by simp, by simpa using Spec.ofJson_distinct hdistinct hspec⟩
    · cases hparts
      exact hnone
  all_goals
    cases hparts
    exact hnone

end Builtin

namespace Registry

variable {registry : Registry}

theorem Builds.fieldNames_eq_nil [Engine] {args : Args} {check : Check}
    (h : registry.Builds args [] check) : check.fieldNames = [] := by
  obtain ⟨entry, -, hbuild⟩ := h
  rcases (Entry.build_parts hbuild).2 with hnames | hnames
  · exact hnames
  · exact hnames

-- A schema that repeats no name gives rules that repeat none, at any depth.
theorem compileRule_distinct [Engine] {field : String} {spec : Spec} {rule : Rule}
    (hspec : spec.Distinct) (h : registry.compileRule field spec = .ok rule) :
    rule.Every fun check => check.fieldNames.Nodup := by
  refine compileRule_every_of (Q := Spec.Distinct) ?_ ?_ hspec h
  · intro args check hbuilt
    rw [hbuilt.fieldNames_eq_nil]
    exact List.nodup_nil
  · intro field d entry parts rules check hd _ hread hnames hbuild
    have hargs : ∀ option ∈ (d.args field).options, option.2.Distinct := hd
    have hdistinct : Schema.DistinctFields parts := by
      cases entry with
      | builtin builtin => exact Builtin.parts_distinct hargs hread
      | extension extension =>
          cases hread
          exact ⟨List.nodup_nil, by simp⟩
    refine ⟨?_, hdistinct.rules⟩
    rcases (Entry.build_parts hbuild).2 with hnone | hall
    · simp [hnone]
    · rw [hall, hnames]
      exact hdistinct.names

theorem compile_distinct [Engine] {schema : Schema} {rules : RuleSet} (hschema : schema.Distinct)
    (h : registry.compile schema = .ok rules) :
    (rules.fields.map (·.1)).Nodup ∧
      ∀ field ∈ rules.fields, field.2.Every fun check => check.fieldNames.Nodup := by
  rw [compile_eq_parts] at h
  obtain ⟨fields, hfields, rfl⟩ := map_eq_ok_iff.mp h
  refine ⟨?_, fun field hfield => ?_⟩
  · rw [compileParts_names hfields]
    exact hschema.names
  · obtain ⟨source, hsource, -, hrule⟩ :=
      exists_of_mem_right (compileParts_eq_ok_iff.mp hfields) hfield
    exact compileRule_distinct (hschema.rules source hsource) hrule

end Registry

end Rulebook
