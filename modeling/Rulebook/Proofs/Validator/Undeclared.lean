import Rulebook.Proofs.Run.Alike
import Rulebook.Proofs.Validator.Report
import Rulebook.Regex.Engine

namespace Rulebook

theorem Json.Distinct.field {data : Json} (hdata : data.Distinct) (name : String) :
    (data.field name).Distinct := by
  cases hdata with
  | @obj members _ hvalues =>
      simp only [Json.field, Json.get?]
      cases hget : Members.get? name members with
      | none => exact .null
      | some value => exact hvalues (name, value) (Members.mem_of_get? hget)
  | _ => exact .null

namespace Validator

-- What a schema over the catalogue does not declare makes no difference, and neither does
-- the order of the members of objects, at any depth. Records whose declared fields are equal
-- as data, and those that a declared one is compared with, report the same. A field that is
-- not there reads as null.
theorem validateCompiled_undeclared [Engine] {schema : Schema} {rules : RuleSet}
    (hrules : Registry.compile {} schema = .ok rules) {data other : Json}
    (hdata : data.Distinct) (hother : other.Distinct)
    (hdeclared : ∀ field ∈ schema.fields,
      (data.field field.1).same (other.field field.1) = true)
    (hcompared : ∀ field ∈ rules.fields, ∀ name ∈ field.2.compared,
      (data.field name).same (other.field name) = true)
    (validator : Validator) (overrides : Texts) :
    validator.validateCompiled data rules overrides =
      validator.validateCompiled other rules overrides := by
  have halike {name : String} (hsame : (data.field name).same (other.field name) = true) :
      Json.Alike (data.field name) (other.field name) :=
    .of_distinct (hdata.field name) (hother.field name) hsame
  have hplaces : List.Forall₂ Place.Agrees (rules.places data) (rules.places other) := by
    simp only [RuleSet.places, List.forall₂_map_left_iff, List.forall₂_map_right_iff,
      List.forall₂_same]
    intro field hfield
    obtain ⟨source, hsource, hname, -⟩ :=
      Outcome.exists_of_mem_right (Registry.compile_eq_ok_iff.mp hrules) hfield
    refine ⟨rfl, rfl, halike ?_, fun name hname => halike (hcompared field hfield name hname)⟩
    rw [hname]
    exact hdeclared source hsource
  rw [validateCompiled_eq, validateCompiled_eq]
  refine congrArg ErrorList.ofList? (Run.flatMap_congr_forall₂ hplaces ?_).symm
  intro place hplace place' hagrees
  obtain ⟨field, hfield, rfl⟩ := List.mem_map.mp hplace
  have hbuiltin : field.2.Every Check.IsBuiltin :=
    Registry.compile_every (fun _ _ _ hbuilt => hbuilt.isBuiltin) hrules hfield
  exact (validator.run data overrides).place_agrees other hbuiltin hagrees

end Validator

-- A password that is to be given twice, and a plan that is one of those on offer.
namespace Order

def password : Descriptor :=
  { kind := "password", options := [("compare", .str "again")] }

def offer : Json :=
  .obj [("name", .str "basic"), ("seats", .num (.int 3 (by decide)))]

def schema : Schema :=
  ⟨[("password", .descriptor password), ("plan", .values [offer])]⟩

def rules : RuleSet :=
  ⟨[("password", .ofChecks [("password", .leaf (.password ⟨.standard 8 18, some "again"⟩))]),
    ("plan", .ofChecks [("enum", .leaf (.enum [offer]))])]⟩

theorem compile [Engine] : Registry.compile {} schema = .ok rules := by
  have hpassword : Registry.compileRule {} "password" (.descriptor password) =
      .ok (.ofChecks [("password", .leaf (.password ⟨.standard 8 18, some "again"⟩))]) := by
    rw [Registry.compileRule_descriptor]
    rfl
  have hplan : Registry.compileRule {} "plan" (.values [offer]) =
      .ok (.ofChecks [("enum", .leaf (.enum [offer]))]) := by
    rw [Registry.compileRule]
    rfl
  exact Registry.compile_eq_ok_iff.mpr (.cons ⟨rfl, hpassword⟩ (.cons ⟨rfl, hplan⟩ .nil))

def data : Json :=
  .obj [("password", .str "correcthorse"), ("again", .str "correct horse"), ("plan", offer)]

def other : Json :=
  .obj [("referrer", .arr [.null]),
    ("plan", .obj [("seats", .num (.int 3 (by decide))), ("name", .str "basic")]),
    ("again", .str "correct horse"), ("password", .str "correcthorse")]

theorem data_distinct : data.Distinct := by
  refine .obj (by decide) ?_
  simp only [List.forall_mem_cons]
  refine ⟨.str _, .str _, .obj (by decide) ?_, by simp⟩
  simp only [List.forall_mem_cons]
  exact ⟨.str _, .num _, by simp⟩

theorem other_distinct : other.Distinct := by
  refine .obj (by decide) ?_
  simp only [List.forall_mem_cons]
  refine ⟨.arr (List.forall_mem_singleton.mpr .null), .obj (by decide) ?_, .str _, .str _, by simp⟩
  simp only [List.forall_mem_cons]
  exact ⟨.num _, .str _, by simp⟩

end Order

namespace Validator

open scoped Regex

theorem validateCompiled_undeclared_order :
    ((Registry.compile {} Order.schema = .ok Order.rules ∧
        Order.data.Distinct ∧ Order.other.Distinct) ∧
      (∀ field ∈ Order.schema.fields,
        (Order.data.field field.1).same (Order.other.field field.1) = true) ∧
      ∀ field ∈ Order.rules.fields, ∀ name ∈ field.2.compared,
        (Order.data.field name).same (Order.other.field name) = true) ∧
      ({} : Validator).validateCompiled Order.other Order.rules [] =
        some ⟨⟨"invalid", "password", "should equal to again"⟩, []⟩ := by
  have hdeclared : ∀ field ∈ Order.schema.fields,
      (Order.data.field field.1).same (Order.other.field field.1) = true := by
    simp only [Order.schema, List.forall_mem_cons]
    exact ⟨rfl, rfl, by simp⟩
  have hcompared : ∀ field ∈ Order.rules.fields, ∀ name ∈ field.2.compared,
      (Order.data.field name).same (Order.other.field name) = true := by
    simp only [Order.rules, List.forall_mem_cons]
    refine ⟨List.forall_mem_singleton.mpr rfl, ?_, by simp⟩
    intro name hname
    cases hname
  refine ⟨⟨⟨Order.compile, Order.data_distinct, Order.other_distinct⟩, hdeclared, hcompared⟩, ?_⟩
  rw [← validateCompiled_undeclared Order.compile Order.data_distinct Order.other_distinct
    hdeclared hcompared]
  rfl

end Validator

end Rulebook
