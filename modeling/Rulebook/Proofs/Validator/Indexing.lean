import Rulebook.Proofs.Json.Path
import Rulebook.Proofs.Run.Simulation
import Rulebook.Proofs.Validator.Report
import Rulebook.Regex.Engine

namespace Rulebook

namespace ErrorList

def map (f : FieldError → FieldError) (errors : ErrorList) : ErrorList :=
  { first := f errors.first, rest := errors.rest.map f }

theorem ofList?_map (f : FieldError → FieldError) (errors : List FieldError) :
    ofList? (errors.map f) = (ofList? errors).map (map f) := by
  cases errors <;> rfl

end ErrorList

-- The error as it reads when elements go by the path of their array.
def FieldError.unindexed (e : FieldError) : FieldError :=
  { e with field := Path.withoutIndices e.field }

namespace RuleSet

-- Names of fields, at any depth, in which no index can begin.
def HasUnbracketedNames (rules : RuleSet) : Prop :=
  ∀ field ∈ rules.fields, '[' ∉ field.1.toList ∧
    field.2.Every fun check => ∀ name ∈ check.fieldNames, '[' ∉ name.toList

end RuleSet

namespace Validator

def indexing (validator : Validator) (on : Bool) : Validator :=
  { validator with config.indexArrayPaths := on }

-- The two runs only differ in what an element adds to the path of its array.
theorem simulates_unindexed (validator : Validator) (data : Json) :
    Simulates ((validator.indexing true).run data []) ((validator.indexing false).run data [])
      Path.withoutIndices FieldError.unindexed where
  element path index := (Path.withoutIndices_index path index).symm
  report _ _ _ := rfl

-- The catalogue does not look at paths, so it cannot tell the two runs apart.
theorem agrees_unindexed (validator : Validator) (data : Json) {check : Check}
    (hcheck : check.IsBuiltin) (hnames : ∀ name ∈ check.fieldNames, '[' ∉ name.toList) :
    check.Agrees ((validator.indexing true).run data []) ((validator.indexing false).run data [])
      Path.withoutIndices where
  ordinary := hcheck.isOrdinary
  field name hname path := Path.withoutIndices_field path (hnames name hname)
  failure _ _ _ := hcheck.failure?_eq ..

-- Indices in the paths change the paths and nothing else: without them, the errors of the
-- one setting are those of the other, in the same order.
theorem validateCompiled_unindexed [Engine] {schema : Schema} {rules : RuleSet}
    (hrules : Registry.compile {} schema = .ok rules) (hnames : rules.HasUnbracketedNames)
    (validator : Validator) (data : Json) :
    (validator.indexing false).validateCompiled data rules [] =
      ((validator.indexing true).validateCompiled data rules []).map
        (ErrorList.map FieldError.unindexed) := by
  have hsim := simulates_unindexed validator data
  have hagrees : ∀ place ∈ rules.places data, place.rule.Every
      (Check.Agrees ((validator.indexing true).run data [])
        ((validator.indexing false).run data []) Path.withoutIndices) := by
    intro place hplace
    obtain ⟨field, hfield, rfl⟩ := List.mem_map.mp hplace
    have hbuiltin : field.2.Every Check.IsBuiltin :=
      Registry.compile_every (fun _ _ _ hbuilt => hbuilt.isBuiltin) hrules hfield
    refine (hbuiltin.and (hnames field hfield).2).mono fun check hcheck => ?_
    exact agrees_unindexed validator data hcheck.1 hcheck.2
  have hmoved : ∀ place ∈ rules.places data, place.moved Path.withoutIndices = place := by
    intro place hplace
    obtain ⟨field, hfield, rfl⟩ := List.mem_map.mp hplace
    simp only [Place.moved, Path.withoutIndices_plain (hnames field hfield).1]
  rw [validateCompiled_eq, validateCompiled_eq, ← ErrorList.ofList?_map, List.map_flatMap]
  refine congrArg ErrorList.ofList? (List.flatMap_congr fun place hplace => ?_)
  rw [← Run.place_moved hsim place (hagrees place hplace), hmoved place hplace]

end Validator

-- Rows of integers, with an element that is none in each of them.
namespace Grid

def row : Descriptor :=
  { kind := "array", options := [("itemType", .str "int")] }

def rows : Descriptor :=
  { kind := "array", options := [("itemType", row.toJson)] }

def cellRule : Rule :=
  .ofChecks [("int", .leaf (.int {}))]

def rowRule : Rule :=
  .ofChecks [("array", .array none none (some cellRule))]

def rules : RuleSet :=
  ⟨[("grid", .ofChecks [("array", .array none none (some rowRule))])]⟩

def data : Json :=
  .obj [("grid", .arr [.arr [.str "a"], .arr [.null, .str "b"]])]

theorem compileRule_row [Engine] :
    Registry.compileRule {} "grid" (.descriptor row) = .ok rowRule := by
  have hentry : Registry.lookup {} "array" = .ok (.builtin .array) := rfl
  have hparts : Entry.parts (row.args "grid") (.builtin .array) = .ok [("grid", .pipe "int")] := rfl
  have hcell : Registry.compileRule {} "grid" (.pipe "int") = .ok cellRule := by
    rw [Registry.compileRule]
    rfl
  rw [Registry.compileRule_descriptor, row, hentry, ← row]
  simp only [bind, Except.bind, hparts, Registry.compileParts, List.mapM_cons, hcell]
  rfl

theorem compile [Engine] : Registry.compile {} ⟨[("grid", .descriptor rows)]⟩ = .ok rules := by
  have hentry : Registry.lookup {} "array" = .ok (.builtin .array) := rfl
  have hparts : Entry.parts (rows.args "grid") (.builtin .array) =
      .ok [("grid", .descriptor row)] := rfl
  have hrows : Registry.compileRule {} "grid" (.descriptor rows) =
      .ok (.ofChecks [("array", .array none none (some rowRule))]) := by
    rw [Registry.compileRule_descriptor, rows, hentry, ← rows]
    simp only [bind, Except.bind, hparts, Registry.compileParts, List.mapM_cons, compileRule_row]
    rfl
  exact Registry.compile_eq_ok_iff.mpr (.cons ⟨rfl, hrows⟩ .nil)

theorem hasUnbracketedNames : rules.HasUnbracketedNames := by
  have hcell : cellRule.Every fun check => ∀ name ∈ check.fieldNames, '[' ∉ name.toList :=
    RuleOf.every_ofChecks (by simp [Check.fieldNames, Check.parts])
  have hrow : rowRule.Every fun check => ∀ name ∈ check.fieldNames, '[' ∉ name.toList :=
    RuleOf.every_ofChecks (by simpa [Check.fieldNames, Check.parts] using hcell)
  refine List.forall_mem_singleton.mpr ⟨by decide, RuleOf.every_ofChecks ?_⟩
  simpa [Check.fieldNames, Check.parts] using hrow

end Grid

namespace Validator

open scoped Regex

theorem validateCompiled_unindexed_grid :
    (Registry.compile {} ⟨[("grid", .descriptor Grid.rows)]⟩ = .ok Grid.rules ∧
      Grid.rules.HasUnbracketedNames) ∧
      ((({} : Validator).indexing true).reported Grid.data Grid.rules []).map FieldError.field =
        ["grid[0][0]", "grid[1][1]"] ∧
      ((({} : Validator).indexing true).validateCompiled Grid.data Grid.rules []).map
          (ErrorList.map FieldError.unindexed) =
        some ⟨⟨"invalid", "grid", "should be an integer"⟩,
          [⟨"invalid", "grid", "should be an integer"⟩]⟩ := by
  refine ⟨⟨Grid.compile, Grid.hasUnbracketedNames⟩, rfl, ?_⟩
  rw [← validateCompiled_unindexed Grid.compile Grid.hasUnbracketedNames {} Grid.data]
  rfl

end Validator

end Rulebook
