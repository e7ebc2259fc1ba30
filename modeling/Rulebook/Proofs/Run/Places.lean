import Rulebook.Proofs.Rule.Kinds
import Rulebook.Proofs.Rule.Nesting
import Rulebook.Validator.Run

namespace Rulebook

-- Where a run meets a rule: the value, the record that holds it, and its path.
structure Place where
  rule : Rule
  value : Json
  record : Json
  path : String

namespace Verdict

-- The failure of a check itself.
def failure? : Verdict → Option Failure
  | fail failure => some failure
  | _ => none

end Verdict

namespace Check

-- The failure of a check itself, apart from those of its parts.
def failure? (run : Run) (value record : Json) (path : String) : Check → Option Failure
  | leaf check => (check.verdict value ⟨record, run.root, path⟩).failure?
  | custom _ matcher options message code =>
      if run.passes path (matcher.inquiry options value ⟨record, run.root, path⟩) then none
      else some ⟨.plain message, code⟩
  | foreign _ answer => (run.verdict path (answer value ⟨record, run.root, path⟩)).failure?
  | object _ => if value.isObject then none else some .notObject
  | array min max _ =>
      match value with
      | .arr items => Run.brokenLength min max items.length
      | _ => some .notArray

-- The places inside a value that a check looks into, in order: the fields of an
-- object as they are declared, and the elements of an array.
def places (indexed : Bool) (value : Json) (path : String) : Check → List Place
  | object fields =>
      (fields.getD []).map fun (name, rule) =>
        ⟨rule, value.field name, value, path ++ "." ++ name⟩
  | array _ _ element =>
      match element, value with
      | some rule, .arr items =>
          items.zipIdx.map fun (item, index) =>
            ⟨rule, item, .null,
              if indexed then path ++ "[" ++ Text.natText index ++ "]" else path⟩
      | _, _ => []
  | _ => []

theorem IsBuiltin.failure?_eq {check : Check} (h : check.IsBuiltin) (value record : Json)
    (run other : Run) (path path' : String) :
    check.failure? run value record path = check.failure? other value record path' := by
  cases check with
  | leaf leaf =>
      rw [failure?, failure?, leaf.verdict_eq value record run.root other.root path path']
  | custom | foreign => exact False.elim h
  | object fields => rfl
  | array min max element => rfl

theorem rule_mem_parts {indexed : Bool} {value : Json} {path : String} {check : Check}
    {place : Place} (h : place ∈ check.places indexed value path) : place.rule ∈ check.parts := by
  cases check with
  | leaf | custom | foreign => simp [places] at h
  | object fields =>
      obtain ⟨field, hfield, rfl⟩ := List.mem_map.mp h
      exact List.mem_map_of_mem hfield
  | array min max element =>
      simp only [places] at h
      split at h
      · obtain ⟨item, -, rfl⟩ := List.mem_map.mp h
        exact List.mem_singleton_self _
      · simp at h

end Check

namespace Place

-- A value that is not there, under a rule that does not ask for one.
def skipped (place : Place) : Bool :=
  place.value.isNull && !place.rule.required

def failure? (run : Run) (place : Place) (check : Check) : Option Failure :=
  check.failure? run place.value place.record place.path

def inner (indexed : Bool) (place : Place) (check : Check) : List Place :=
  check.places indexed place.value place.path

theorem rule_mem_parts {indexed : Bool} {place inner : Place} {check : Check}
    (h : inner ∈ place.inner indexed check) : inner.rule ∈ check.parts :=
  Check.rule_mem_parts h

-- What passes from the places inside a place to the place itself holds of all places.
theorem induction (indexed : Bool) {motive : Place → Prop}
    (step : ∀ place : Place, (∀ check ∈ place.rule.checks,
      ∀ inner ∈ place.inner indexed check.2, motive inner) → motive place)
    (place : Place) : motive place := by
  obtain ⟨rule, value, record, path⟩ := place
  induction rule using RuleOf.induction generalizing value record path with
  | step rule ih =>
      refine step _ fun check hcheck inner hinner => ?_
      exact ih check hcheck inner.rule (rule_mem_parts hinner) _ _ _

end Place

namespace Run

def place (run : Run) (place : Place) : List FieldError :=
  run.rule place.value place.record place.path place.rule

theorem checks_eq (run : Run) (value record : Json) (path : String)
    (checks : List (String × Check)) :
    run.checks value record path checks =
      (checks.findSome? fun check =>
        run.check check.1 value record path check.2).getD [] := by
  induction checks with
  | nil => rfl
  | cons first rest ih =>
      obtain ⟨name, check⟩ := first
      rw [Run.checks, List.findSome?_cons]
      cases run.check name value record path check with
      | none => exact ih
      | some errors => rfl

-- The first check that fails speaks for the place.
theorem place_eq (run : Run) (place : Place) :
    run.place place = if place.skipped then [] else
      (place.rule.checks.findSome? fun check =>
        run.check check.1 place.value place.record place.path check.2).getD [] := by
  obtain ⟨⟨checks, required⟩, value, record, path⟩ := place
  simp only [Run.place, Run.rule, Place.skipped, checks_eq]
  rfl

theorem fields_eq (run : Run) (record : Json) (parent : Option String)
    (fields : List (String × Rule)) :
    run.fields record parent fields = fields.flatMap fun field =>
      run.place ⟨field.2, record.field field.1, record, fieldPath parent field.1⟩ := by
  induction fields with
  | nil => rfl
  | cons field rest ih =>
      obtain ⟨name, rule⟩ := field
      rw [Run.fields, ih, List.flatMap_cons, Run.place]

theorem fieldPath_some (path field : String) :
    fieldPath (some path) field = path ++ "." ++ field :=
  rfl

-- A check that a user describes fails by itself, whatever it asks.
theorem check_custom (run : Run) (name : String) (value record : Json) (path own : String)
    (matcher : Matcher) (options : List (String × Json)) (message : String) (code : ErrorCode) :
    run.check name value record path (.custom own matcher options message code) =
      run.ofVerdict name path
        (.when (run.passes path (matcher.inquiry options value ⟨record, run.root, path⟩))
          ⟨.plain message, code⟩) := by
  cases matcher <;> rfl

theorem check_custom_eq_none_iff {run : Run} {name : String} {value record : Json}
    {path own : String} {matcher : Matcher} {options : List (String × Json)} {message : String}
    {code : ErrorCode} :
    run.check name value record path (.custom own matcher options message code) = none ↔
      run.passes path (matcher.inquiry options value ⟨record, run.root, path⟩) = true := by
  rw [check_custom]
  cases run.passes path (matcher.inquiry options value ⟨record, run.root, path⟩) <;>
    simp [Verdict.when, ofVerdict]

-- What a check may do: fail by itself, fail by the errors of its parts, or pass.
theorem check_eq (run : Run) (name : String) (value record : Json) (path : String)
    {check : Check} (hcheck : check.IsOrdinary) :
    run.check name value record path check =
      match check.failure? run value record path with
      | some failure => some [run.resolve path name failure]
      | none => ofParts ((check.places run.indexed value path).flatMap run.place) := by
  cases check with
  | leaf leaf =>
      have hnested := leaf.verdict_ne_nested value ⟨record, run.root, path⟩
      simp only [Run.check, Check.failure?, Check.places, List.flatMap_nil]
      cases hverdict : leaf.verdict value ⟨record, run.root, path⟩ with
      | pass => rfl
      | fail failure => rfl
      | nested errors => exact False.elim (hnested errors hverdict)
  | custom own matcher options message code =>
      rw [check_custom]
      simp only [Check.failure?, Check.places, List.flatMap_nil]
      cases run.passes path (matcher.inquiry options value ⟨record, run.root, path⟩) <;> rfl
  | foreign own answer => exact False.elim hcheck
  | object fields =>
      cases fields with
      | none => by_cases hobject : value.isObject <;>
          simp [Run.check, Check.failure?, Check.places, hobject, ofParts]
      | some fields => by_cases hobject : value.isObject <;>
          simp [Run.check, Check.failure?, Check.places, hobject, fields_eq, fieldPath_some,
            List.flatMap_map]
  | array min max element =>
      cases value with
      | arr items =>
          cases hlength : brokenLength min max items.length with
          | some failure => cases element <;> simp [Run.check, Check.failure?, hlength]
          | none =>
              cases element with
              | none => simp [Run.check, Check.failure?, Check.places, hlength, ofParts]
              | some element =>
                  simp [Run.check, Check.failure?, Check.places, hlength, List.flatMap_map,
                    Run.place, elementPath]
      | null | bool b | num n | str s | obj members => rfl

end Run

end Rulebook
