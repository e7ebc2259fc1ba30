import Rulebook.Proofs.Compile.Presence
import Rulebook.Proofs.Run.Invoked
import Rulebook.Proofs.Validator.Report
import Rulebook.Regex.Engine

namespace Rulebook

open Outcome

namespace Run

theorem outcome_required (run : Run) (place : Place) (name : String) :
    run.outcome place (name, .leaf .required) =
      if place.value.isBlank then some [run.resolve place.path name .missing]
      else none := by
  simp only [outcome, Run.check, Leaf.verdict, Verdict.when]
  cases place.value.isBlank <;> rfl

theorem Invokes.asks {run : Run} {place final : Place} {check : String × Check}
    (hinvokes : run.Invokes place final check) : run.Asks final check := by
  induction hinvokes with
  | here hasks => exact hasks
  | inside _ _ _ _ ih => exact ih

theorem Invokes.looksFirst {run : Run} {place final : Place} {check : String × Check}
    (hinvokes : run.Invokes place final check) (hrule : place.rule.LooksFirst)
    (hparts : place.rule.Every fun check => ∀ part ∈ check.parts, part.LooksFirst) :
    final.rule.LooksFirst := by
  induction hinvokes with
  | here => exact hrule
  | inside hasks _ hinner _ ih =>
      have hpart := Place.rule_mem_parts hinner
      exact ih (hparts.here hasks.mem _ hpart) (hparts.inside hasks.mem hpart)

section Blank

variable {run : Run} {place : Place} (hrule : place.rule.LooksFirst)
  (hrequired : place.rule.required = true) (hblank : place.value.isBlank = true)

include hrule hrequired

theorem asks_required : run.Asks place (RuleOf.requiredName, .leaf .required) := by
  obtain ⟨rest, hchecks⟩ := hrule hrequired
  refine ⟨?_, [], rest, hchecks, by simp⟩
  simp [Place.skipped, hrequired]

include hblank

-- Nothing comes after the check for the presence of a value that is not there.
theorem Asks.eq_required {check : String × Check} (hasks : run.Asks place check) :
    check = (RuleOf.requiredName, .leaf .required) := by
  obtain ⟨rest, hchecks⟩ := hrule hrequired
  obtain ⟨-, before, after, hturn, hbefore⟩ := hasks
  rw [hchecks] at hturn
  cases before with
  | nil => exact (List.cons.inj hturn).1.symm
  | cons first before =>
      obtain ⟨hfirst, -⟩ := List.cons.inj hturn
      have hpasses := hbefore first List.mem_cons_self
      rw [← hfirst, outcome_required, if_pos hblank] at hpasses
      cases hpasses

theorem place_of_blank :
    run.place place = [run.resolve place.path RuleOf.requiredName .missing] := by
  refine (asks_required hrule hrequired).place_eq ?_
  rw [outcome_required, if_pos hblank]

theorem invokes_iff_of_blank {final : Place} {check : String × Check} :
    run.Invokes place final check ↔
      final = place ∧ check = (RuleOf.requiredName, .leaf .required) := by
  constructor
  · intro hinvokes
    cases hinvokes with
    | here hasks => exact ⟨rfl, hasks.eq_required hrule hrequired hblank⟩
    | inside hasks _ hinner _ =>
        rw [hasks.eq_required hrule hrequired hblank] at hinner
        simp [Place.inner, Check.places] at hinner
  · rintro ⟨rfl, rfl⟩
    exact .here (asks_required hrule hrequired)

end Blank

theorem not_invokes_of_skipped {run : Run} {place final : Place} {check : String × Check}
    (hskip : place.skipped = true) : ¬ run.Invokes place final check := by
  intro hinvokes
  have htried : place.skipped = false := by
    cases hinvokes with
    | here hasks => exact hasks.tried
    | inside hasks => exact hasks.tried
  simp [hskip] at htried

end Run

namespace RuleSet

-- Of a record without any value, each field that asks for one is reported, and no other.
theorem report_of_absent (run : Run) {data : Json} (habsent : ∀ name, data.field name = .null)
    {rules : RuleSet} (hrules : ∀ field ∈ rules.fields, field.2.LooksFirst) :
    (rules.places data).flatMap run.place =
      (rules.fields.filter (·.2.required)).map fun field =>
        run.resolve field.1 RuleOf.requiredName .missing := by
  obtain ⟨fields⟩ := rules
  simp only [places, List.flatMap_map, habsent]
  induction fields with
  | nil => rfl
  | cons field rest ih =>
      obtain ⟨hfirst, hrest⟩ := List.forall_mem_cons.mp hrules
      rw [List.flatMap_cons, ih hrest, List.filter_cons]
      cases hrequired : field.2.required with
      | true =>
          rw [Run.place_of_blank hfirst hrequired rfl]
          rfl
      | false =>
          have hskip : Place.skipped ⟨field.2, .null, data, field.1⟩ = true := by
            simp [Place.skipped, hrequired, Json.isNull]
          rw [Run.place_eq, if_pos hskip]
          rfl

end RuleSet

namespace Json

theorem field_of_not_object {data : Json} (hdata : data.isObject = false) (name : String) :
    data.field name = .null := by
  cases data with
  | obj members => cases hdata
  | null | bool b | num n | str s | arr items => rfl

end Json

namespace Validator

theorem reported_of_absent [Engine] {registry : Registry}
    (hrequired : registry.resolve RuleOf.requiredName = some (.builtin .required))
    {schema : Schema} {rules : RuleSet} (hrules : registry.compile schema = .ok rules)
    (validator : Validator) {data : Json} (habsent : ∀ name, data.field name = .null)
    (overrides : Texts) :
    validator.reported data rules overrides =
      (schema.fields.filter (·.2.asksValue)).map fun field =>
        validator.config.resolve overrides field.1 RuleOf.requiredName .missing := by
  have hlooks : ∀ field ∈ rules.fields, field.2.LooksFirst := by
    intro field hfield
    obtain ⟨source, -, -, hrule⟩ :=
      exists_of_mem_right (Registry.compile_eq_ok_iff.mp hrules) hfield
    exact Registry.compileRule_looksFirst hrequired hrule
  have hnames := congrArg (List.map fun name =>
    validator.config.resolve overrides name RuleOf.requiredName .missing)
    (Registry.compile_required hrules)
  rw [List.map_map, List.map_map] at hnames
  rw [reported_eq, RuleSet.report_of_absent _ habsent hlooks]
  exact hnames

theorem validateCompiled_congr_reported {validator other : Validator} {data data' : Json}
    {rules rules' : RuleSet} {overrides overrides' : Texts}
    (h : validator.reported data rules overrides = other.reported data' rules' overrides') :
    validator.validateCompiled data rules overrides =
      other.validateCompiled data' rules' overrides' := by
  rw [reported_eq, reported_eq] at h
  rw [validateCompiled_eq, validateCompiled_eq, h]

-- What is missing is passed over or reported as missing, and no other check gets to see it.
-- With the check of the catalogue for the presence of a value, whatever the other checks of
-- a registry are:
-- a rule that does not ask for a value invokes nothing on null;
-- a rule that does, reports null, a blank text, and an empty array or object, once, as a
-- missing field, and invokes nothing else on them;
-- at any depth, no other check is invoked on null;
-- and what is no object is reported as the empty object is, by the fields that ask for a
-- value in the order of their declaration.
theorem validateCompiled_missing [Engine] {registry : Registry}
    (hrequired : registry.resolve RuleOf.requiredName = some (.builtin .required)) :
    (∀ {field : String} {spec : Spec} {rule : Rule}, registry.compileRule field spec = .ok rule →
      rule.required = spec.asksValue ∧
      ∀ (run : Run) (value record : Json) (path : String),
        (rule.required = false → run.rule .null record path rule = [] ∧
          ∀ final check, ¬ run.Invokes ⟨rule, .null, record, path⟩ final check) ∧
        (rule.required = true → value.isBlank = true →
          run.rule value record path rule =
            [run.resolve path "required" ⟨⟨"required", []⟩, .missingField⟩] ∧
          ∀ final check, run.Invokes ⟨rule, value, record, path⟩ final check ↔
            final = ⟨rule, value, record, path⟩ ∧ check = ("required", .leaf .required)) ∧
        (∀ final check, run.Invokes ⟨rule, value, record, path⟩ final check →
          final.value = .null → check = ("required", .leaf .required))) ∧
      ∀ {schema : Schema} {rules : RuleSet}, registry.compile schema = .ok rules →
        ∀ (validator : Validator) (data : Json) (overrides : Texts), data.isObject = false →
          validator.validateCompiled data rules overrides =
            validator.validateCompiled (.obj []) rules overrides ∧
          validator.reported data rules overrides =
            (schema.fields.filter (·.2.asksValue)).map fun field =>
              validator.config.resolve overrides field.1 "required"
                ⟨⟨"required", []⟩, .missingField⟩ := by
  constructor
  · intro field spec rule hrule
    have hlooks := Registry.compileRule_looksFirst hrequired hrule
    refine ⟨Registry.compileRule_required hrule, fun run value record path => ⟨?_, ?_, ?_⟩⟩
    · intro hoptional
      have hskip : Place.skipped ⟨rule, .null, record, path⟩ = true := by
        simp [Place.skipped, hoptional, Json.isNull]
      refine ⟨?_, fun final check => Run.not_invokes_of_skipped hskip⟩
      exact (run.place_eq ⟨rule, .null, record, path⟩).trans (if_pos hskip)
    · intro hasked hblank
      have hplace : run.place ⟨rule, value, record, path⟩ =
          [run.resolve path RuleOf.requiredName .missing] :=
        Run.place_of_blank hlooks hasked hblank
      exact ⟨hplace, fun final check => Run.invokes_iff_of_blank hlooks hasked hblank⟩
    · intro final check hinvokes hnull
      have hfinal :=
        hinvokes.looksFirst hlooks (Registry.compileRule_every_looksFirst hrequired hrule)
      have hasks := hinvokes.asks
      have hasked : final.rule.required = true := by
        have htried := hasks.tried
        simpa [Place.skipped, hnull, Json.isNull] using htried
      exact hasks.eq_required hfinal hasked (by rw [hnull]; rfl)
  · intro schema rules hrules validator data overrides hdata
    have habsent := Json.field_of_not_object hdata
    have hreported := reported_of_absent hrequired hrules validator habsent overrides
    refine ⟨validateCompiled_congr_reported ?_, hreported⟩
    rw [hreported, reported_of_absent hrequired hrules validator (fun _ => rfl) overrides]

end Validator

-- Two fields under a check of a user that no value passes. It stands before the check for
-- the presence of a value.
namespace Signup

def grim : Check :=
  .foreign "grim" fun _ _ => .answer (.nested [⟨"grim", "everywhere", "never good enough"⟩])

def registry : Registry :=
  Registry.add {} "grim" (.foreign .none fun _ =>
    .ok fun _ _ => .answer (.nested [⟨"grim", "everywhere", "never good enough"⟩]))

def schema : Schema :=
  ⟨[("email", .pipe "grim|required"), ("nickname", .pipe "grim")]⟩

def emailRule : Rule :=
  .ofChecks [("grim", grim), ("required", .leaf .required)]

def rules : RuleSet :=
  ⟨[("email", emailRule), ("nickname", .ofChecks [("grim", grim)])]⟩

theorem compileRule_email [Engine] :
    registry.compileRule "email" (.pipe "grim|required") = .ok emailRule := by
  rw [Registry.compileRule]
  rfl

theorem compile [Engine] : registry.compile schema = .ok rules := by
  have hnickname : registry.compileRule "nickname" (.pipe "grim") =
      .ok (.ofChecks [("grim", grim)]) := by
    rw [Registry.compileRule]
    rfl
  exact Registry.compile_eq_ok_iff.mpr
    (.cons ⟨rfl, compileRule_email⟩ (.cons ⟨rfl, hnickname⟩ .nil))

end Signup

open scoped Regex

theorem Validator.validateCompiled_missing_signup :
    (Signup.registry.resolve RuleOf.requiredName = some (.builtin .required) ∧
      Signup.registry.compileRule "email" (.pipe "grim|required") = .ok Signup.emailRule ∧
      Signup.registry.compile Signup.schema = .ok Signup.rules) ∧
      (∀ final check,
        (({} : Validator).run .null []).Invokes ⟨Signup.emailRule, .str " ", .null, "email"⟩
            final check ↔
          final = ⟨Signup.emailRule, .str " ", .null, "email"⟩ ∧
            check = ("required", .leaf .required)) ∧
      ({} : Validator).reported (.str "text") Signup.rules [] =
        [⟨"missing_field", "email", "required"⟩] := by
  have hrequired : Signup.registry.resolve RuleOf.requiredName = some (.builtin .required) := rfl
  refine ⟨⟨hrequired, Signup.compileRule_email, Signup.compile⟩, ?_, ?_⟩
  · have hemail := (validateCompiled_missing hrequired).1 Signup.compileRule_email
    exact ((hemail.2 _ (.str " ") .null "email").2.1 rfl (by decide)).2
  · have hrules := (validateCompiled_missing hrequired).2 Signup.compile
    exact (hrules {} (.str "text") [] rfl).2

end Rulebook
