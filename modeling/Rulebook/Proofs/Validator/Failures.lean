import Rulebook.Proofs.Run.Occurs
import Rulebook.Proofs.Validator.Report
import Rulebook.Regex.Engine

namespace Rulebook

-- A check of a user that gives an error whenever it fails.
def Extension.Speaks : Extension → Prop
  | custom .. => True
  | foreign _ build => ∀ args answer, build args = .ok answer →
      ∀ (run : Run) path value context, run.verdict path (answer value context) ≠ .nested []

def Check.Speaks : Check → Prop
  | foreign _ answer =>
      ∀ (run : Run) path value context, run.verdict path (answer value context) ≠ .nested []
  | _ => True

namespace Registry

def Speaks (registry : Registry) : Prop :=
  ∀ name extension, Members.get? name registry.added = some extension → extension.Speaks

theorem Builds.speaks [Engine] {registry : Registry} (hregistry : registry.Speaks) {args : Args}
    {rules : List (String × Rule)} {check : Check} (h : registry.Builds args rules check) :
    check.Speaks := by
  obtain ⟨entry, hentry, hbuild⟩ := h
  cases entry with
  | builtin builtin =>
      have hbuiltin := builtin.build_isBuiltin hbuild
      cases check with
      | foreign name answer => exact False.elim hbuiltin
      | leaf | custom | object | array => trivial
  | extension extension =>
      have hspeaks := hregistry _ _ (get?_added_of_resolve hentry)
      cases extension with
      | custom matcher template code params =>
          cases hbuild
          trivial
      | foreign params build =>
          obtain ⟨answer, hanswer, rfl⟩ := Outcome.map_eq_ok_iff.mp hbuild
          exact hspeaks args answer hanswer

end Registry

namespace Validator

-- A validation that finds nothing invoked no check that failed, at any depth, save for checks
-- of users that fail and hand over no error. In a registry without those, to find nothing is to
-- have every invoked check pass.
-- The same holds of what a check has validated on the way: it is handed no error exactly if no
-- check that was invoked for it failed, save for those that hand over no error.
-- Whether that is reported is up to the check that was handed the errors. If no check keeps
-- them to itself, to find nothing is to have every check pass that was tried at all.
theorem validateCompiled_invoked [Engine] {registry : Registry} {schema : Schema} {rules : RuleSet}
    (hrules : registry.compile schema = .ok rules) (validator : Validator) (data : Json)
    (overrides : Texts) :
    (validator.validateCompiled data rules overrides = none ↔
        ∀ place ∈ rules.places data, ∀ final check,
          (validator.run data overrides).Invokes place final check →
            (validator.run data overrides).outcome final check = none ∨
              final.Mute (validator.run data overrides) check.2) ∧
      (registry.Speaks →
        (validator.validateCompiled data rules overrides = none ↔
          ∀ place ∈ rules.places data, ∀ final check,
            (validator.run data overrides).Invokes place final check →
              (validator.run data overrides).outcome final check = none)) ∧
      (∀ place check, ∀ places ∈ (validator.run data overrides).consults place check,
        (places.flatMap (validator.run data overrides).place = [] ↔
          ∀ inner ∈ places, ∀ final last,
            (validator.run data overrides).Invokes inner final last →
              (validator.run data overrides).outcome final last = none ∨
                final.Mute (validator.run data overrides) last.2)) ∧
      ((∀ place ∈ rules.places data, ∀ final check,
          (validator.run data overrides).Occurs place final check →
            (validator.run data overrides).Heeds final check) →
        (validator.validateCompiled data rules overrides = none ↔
          ∀ place ∈ rules.places data, ∀ final check,
            (validator.run data overrides).Occurs place final check →
              (validator.run data overrides).outcome final check = none ∨
                final.Mute (validator.run data overrides) check.2)) := by
  have hplaces (places : List Place) :
      places.flatMap (validator.run data overrides).place = [] ↔
        ∀ inner ∈ places, ∀ final check,
          (validator.run data overrides).Invokes inner final check →
            (validator.run data overrides).outcome final check = none ∨
              final.Mute (validator.run data overrides) check.2 := by
    rw [List.flatMap_eq_nil_iff]
    exact forall₂_congr fun place _ => Run.place_eq_nil_iff _ place
  have hreported : validator.validateCompiled data rules overrides = none ↔
      (rules.places data).flatMap (validator.run data overrides).place = [] := by
    rw [validateCompiled_eq_none_iff, reported_eq]
  have hnone := hreported.trans (hplaces _)
  refine ⟨hnone, fun hspeaks => ?_, fun place check places _ => hplaces places, fun hheeds => ?_⟩
  · rw [hnone]
    refine forall₂_congr fun place hplace => forall₃_congr fun final check hinvokes => ?_
    refine or_iff_left ?_
    rintro ⟨name, answer, hcheck, hanswer⟩
    obtain ⟨field, hfield, rfl⟩ := List.mem_map.mp hplace
    have hevery : field.2.Every Check.Speaks :=
      Registry.compile_every (fun _ _ _ hbuilt => hbuilt.speaks hspeaks) hrules hfield
    have hcheckSpeaks := hinvokes.holds hevery
    rw [hcheck] at hcheckSpeaks
    exact hcheckSpeaks _ _ _ _ hanswer
  · rw [hreported, List.flatMap_eq_nil_iff]
    exact forall₂_congr fun place hplace => Run.place_eq_nil_iff_of_heeds (hheeds place hplace)

end Validator

-- A check of a user for names.
namespace Directory

def registry (answer : Json → Context → Inquiry Check Verdict) : Registry :=
  Registry.add {} "known" (.foreign .none fun _ => .ok answer)

def schema : Schema :=
  ⟨[("name", .pipe "known")]⟩

def nameRule (answer : Json → Context → Inquiry Check Verdict) : Rule :=
  .ofChecks [("known", .foreign "known" answer)]

def rules (answer : Json → Context → Inquiry Check Verdict) : RuleSet :=
  ⟨[("name", nameRule answer)]⟩

def data : Json :=
  .obj [("name", .str "b0b")]

def letters : Rule :=
  .ofChecks [("alpha", .leaf .alpha)]

-- It fails and says nothing.
def mute (_ : Json) (_ : Context) : Inquiry Check Verdict :=
  .answer (.nested [])

-- It has the letters of the name looked at, and hands on what comes of it.
def careful (value : Json) (_ : Context) : Inquiry Check Verdict :=
  .items letters [value] fun errors => .answer (if errors.isEmpty then .pass else .nested errors)

-- It has them looked at and does not care.
def careless (value : Json) (_ : Context) : Inquiry Check Verdict :=
  .items letters [value] fun _ => .answer .pass

theorem compile [Engine] (answer : Json → Context → Inquiry Check Verdict) :
    (registry answer).compile schema = .ok (rules answer) := by
  have hname : (registry answer).compileRule "name" (.pipe "known") = .ok (nameRule answer) := by
    rw [Registry.compileRule]
    rfl
  exact Registry.compile_eq_ok_iff.mpr (.cons ⟨rfl, hname⟩ .nil)

theorem speaks {answer : Json → Context → Inquiry Check Verdict}
    (h : ∀ (run : Run) path value context, run.verdict path (answer value context) ≠ .nested []) :
    (registry answer).Speaks := by
  intro name extension hadded
  have hmem := Members.mem_of_get? hadded
  have hadds : (registry answer).added = [("known", .foreign .none fun _ => .ok answer)] := rfl
  rw [hadds, List.mem_singleton, Prod.mk.injEq] at hmem
  obtain ⟨-, rfl⟩ := hmem
  intro args built hbuilt
  cases hbuilt
  exact h

theorem speaks_careful : (registry careful).Speaks := by
  refine speaks fun run path value context => ?_
  rw [careful, Run.verdict_items, Run.verdict]
  cases (run.itemPlaces path letters [value]).flatMap run.place <;> simp

theorem speaks_careless : (registry careless).Speaks := by
  refine speaks fun run path value context => ?_
  rw [careless, Run.verdict_items, Run.verdict]
  simp

def place (answer : Json → Context → Inquiry Check Verdict) : Place :=
  ⟨nameRule answer, .str "b0b", data, "name"⟩

theorem asks (answer : Json → Context → Inquiry Check Verdict) (run : Run) :
    run.Asks (place answer) ("known", .foreign "known" answer) :=
  ⟨rfl, [], [], rfl, by simp⟩

-- The place of the name where its letters are looked at.
def inner : Place :=
  ⟨letters, .str "b0b", .null, "name"⟩

theorem asks_letters (run : Run) : run.Asks inner ("alpha", .leaf .alpha) :=
  ⟨rfl, [], [], rfl, by simp⟩

end Directory

namespace Run

theorem heeds_of_consults_eq_nil {run : Run} {place : Place} {check : String × Check}
    (h : run.consults place check.2 = []) : run.Heeds place check := by
  intro places hplaces
  simp [h] at hplaces

end Run

namespace Directory

-- What is tried for a name is the check itself, or the check of the letters.
theorem throughout_careful :
    (nameRule careful).Throughout fun check =>
      check = .foreign "known" careful ∨ check = .leaf .alpha := by
  refine .of_single rfl (.inl rfl) rfl ?_
  rintro other ⟨value, context, hasks⟩
  cases hasks with
  | item => exact .of_single rfl (.inr rfl) rfl fun other => False.elim
  | afterItems errors hnext => cases hnext

theorem heeds_careful (run : Run) (final : Place) (name : String) :
    run.Heeds final (name, .foreign "known" careful) := by
  intro places hplaces herrors
  obtain rfl : places = run.itemPlaces final.path letters [final.value] := by
    simpa [Run.consults, careful, Run.consulted] using hplaces
  refine ⟨_, herrors, ?_⟩
  rw [Run.outcome, Run.check, careful, Run.verdict_items, Run.verdict]
  simp [herrors, Run.ofVerdict]

end Directory

namespace Validator

open scoped Regex

theorem validateCompiled_invoked_directory :
    ((Directory.registry Directory.careful).compile Directory.schema =
        .ok (Directory.rules Directory.careful) ∧
      (Directory.registry Directory.careful).Speaks ∧
      ∀ place ∈ (Directory.rules Directory.careful).places Directory.data, ∀ final check,
        (({} : Validator).run Directory.data []).Occurs place final check →
          (({} : Validator).run Directory.data []).Heeds final check) ∧
      (¬ ∀ place ∈ (Directory.rules Directory.careful).places Directory.data, ∀ final check,
        (({} : Validator).run Directory.data []).Invokes place final check →
          (({} : Validator).run Directory.data []).outcome final check = none) ∧
      ¬ ∀ place ∈ (Directory.rules Directory.careful).places Directory.data, ∀ final check,
        (({} : Validator).run Directory.data []).Occurs place final check →
          (({} : Validator).run Directory.data []).outcome final check = none ∨
            final.Mute (({} : Validator).run Directory.data []) check.2 := by
  have hrules := Directory.compile Directory.careful
  have hspeaks := Directory.speaks_careful
  have hheeds : ∀ place ∈ (Directory.rules Directory.careful).places Directory.data,
      ∀ final check, (({} : Validator).run Directory.data []).Occurs place final check →
        (({} : Validator).run Directory.data []).Heeds final check := by
    intro place hplace final check hoccurs
    obtain rfl := List.mem_singleton.mp hplace
    obtain ⟨name, check⟩ := check
    obtain rfl | rfl := hoccurs.holds Directory.throughout_careful
    · exact Directory.heeds_careful _ final name
    · exact Run.heeds_of_consults_eq_nil rfl
  have hreported : ({} : Validator).validateCompiled Directory.data
      (Directory.rules Directory.careful) [] ≠ none := by decide +kernel
  obtain ⟨-, hinvoked, -, hoccurring⟩ := validateCompiled_invoked hrules {} Directory.data []
  exact ⟨⟨hrules, hspeaks, hheeds⟩, fun h => hreported ((hinvoked hspeaks).mpr h),
    fun h => hreported ((hoccurring hheeds).mpr h)⟩

open scoped Regex

-- A check that fails and hands over no error is lost: nothing is reported.
theorem validateCompiled_mute :
    (Directory.registry Directory.mute).compile Directory.schema =
        .ok (Directory.rules Directory.mute) ∧
      ({} : Validator).validateCompiled Directory.data (Directory.rules Directory.mute) [] = none ∧
      ∃ place ∈ (Directory.rules Directory.mute).places Directory.data, ∃ check,
        (({} : Validator).run Directory.data []).Invokes place place check ∧
          (({} : Validator).run Directory.data []).outcome place check ≠ none := by
  refine ⟨Directory.compile _, rfl, Directory.place _, List.mem_singleton_self _, _,
    .here (Directory.asks _ _), ?_⟩
  have hfails : (({} : Validator).run Directory.data []).outcome (Directory.place Directory.mute)
      ("known", .foreign "known" Directory.mute) = some [] := rfl
  simp [hfails]

-- A check that asks and does not care keeps the errors from being reported.
theorem validateCompiled_careless [Engine] :
    (Directory.registry Directory.careless).compile Directory.schema =
        .ok (Directory.rules Directory.careless) ∧
      (Directory.registry Directory.careless).Speaks ∧
      ({} : Validator).validateCompiled Directory.data (Directory.rules Directory.careless) [] =
        none ∧
      ∃ place ∈ (Directory.rules Directory.careless).places Directory.data, ∃ final check,
        (({} : Validator).run Directory.data []).Occurs place final check ∧
          (({} : Validator).run Directory.data []).outcome final check =
            some [⟨"invalid", "name", "The field must be entirely alphabetic characters."⟩] := by
  refine ⟨Directory.compile _, Directory.speaks_careless, rfl, Directory.place _,
    List.mem_singleton_self _, Directory.inner, ("alpha", .leaf .alpha), ?_, by decide +kernel⟩
  exact .consulted (Directory.asks _ _) (List.mem_singleton_self _) (List.mem_singleton_self _)
    (.here (Directory.asks_letters _))

end Validator

end Rulebook
