import Rulebook.Proofs.Compile.Induction
import Rulebook.Proofs.Json.Members
import Rulebook.Proofs.Registry.Registration
import Rulebook.Proofs.Rule.Kinds

namespace Rulebook

open Outcome

namespace Builtin

-- What the catalogue builds. Only objects and arrays take up the rules of their parts.
theorem build_cases [Engine] {builtin : Builtin} {args : Args} {rules : List (String × Rule)}
    {check : Check} (h : builtin.build args rules = .ok check) :
    (∃ leaf, check = .leaf leaf) ∨
      (builtin = .object ∧ check = .object (if args.has "rule" then some rules else none)) ∨
      (builtin = .array ∧ ∃ min max, check = .array min max (rules.head?.map (·.2))) := by
  cases builtin
  case object =>
    cases h
    exact .inr (.inl ⟨rfl, rfl⟩)
  case array =>
    obtain ⟨min, -, h⟩ := bind_eq_ok_iff.mp h
    obtain ⟨max, -, h⟩ := bind_eq_ok_iff.mp h
    cases h
    exact .inr (.inr ⟨rfl, min, max, rfl⟩)
  case id | date | dateTime | email =>
    obtain ⟨leaf, hleaf, h⟩ := bind_eq_ok_iff.mp h
    cases h
    exact .inl ⟨leaf, rfl⟩
  case required | accepted | alpha | phone | boolean =>
    cases h
    exact .inl ⟨_, rfl⟩
  case numeric | captcha | string | url | password | int | number | enum =>
    obtain ⟨options, -, h⟩ := bind_eq_ok_iff.mp h
    cases h
    exact .inl ⟨_, rfl⟩

theorem build_isBuiltin [Engine] {builtin : Builtin} {args : Args} {rules : List (String × Rule)}
    {check : Check} (h : builtin.build args rules = .ok check) : check.IsBuiltin := by
  obtain ⟨leaf, rfl⟩ | ⟨-, rfl⟩ | ⟨-, min, max, rfl⟩ := build_cases h
  · trivial
  · trivial
  · trivial

end Builtin

namespace Extension

-- What is built for users: a check that they describe, or one with a function of its own.
theorem build_cases {extension : Extension} {args : Args} {check : Check}
    (h : extension.build args = .ok check) :
    (∃ name m options message code, check = .custom name m options message code) ∨
      ∃ name answer, check = .foreign name answer := by
  cases extension with
  | custom m template code params =>
      cases h
      exact .inl ⟨_, _, _, _, _, rfl⟩
  | foreign params build =>
      obtain ⟨answer, -, rfl⟩ := map_eq_ok_iff.mp h
      exact .inr ⟨_, answer, rfl⟩

end Extension

namespace Entry

-- A check holds no rules but those it is built from, and its fields have their names.
theorem build_parts [Engine] {entry : Entry} {args : Args} {rules : List (String × Rule)}
    {check : Check}
    (h : entry.build args rules = .ok check) :
    (∀ part ∈ check.parts, part ∈ rules.map (·.2)) ∧
      (check.fieldNames = [] ∨ check.fieldNames = rules.map (·.1)) := by
  cases entry with
  | extension extension =>
      obtain ⟨name, m, options, message, code, rfl⟩ | ⟨name, answer, rfl⟩ :=
        Extension.build_cases h
      · simp [Check.parts, Check.fieldNames]
      · simp [Check.parts, Check.fieldNames]
  | builtin builtin =>
      obtain ⟨leaf, rfl⟩ | ⟨-, rfl⟩ | ⟨-, min, max, rfl⟩ := Builtin.build_cases h
      · simp [Check.parts, Check.fieldNames]
      · by_cases hrule : args.has "rule"
        · simp [hrule, Check.parts, Check.fieldNames]
        · simp [hrule, Check.parts, Check.fieldNames]
      · refine ⟨fun part hpart => ?_, .inl rfl⟩
        simp only [Check.parts, Option.mem_toList, Option.map_eq_some_iff] at hpart
        obtain ⟨rule, hrule, rfl⟩ := hpart
        exact List.mem_map_of_mem (List.mem_of_mem_head? hrule)

end Entry

namespace RuleOf

theorem mem_ofChecks {checks : List (String × Check)} {check : String × Check} :
    check ∈ (ofChecks checks).checks ↔ check ∈ checks := by
  simp only [ofChecks, List.mem_append, List.mem_filter]
  cases isRequired check <;> simp

theorem every_ofChecks {P : Check → Prop} {checks : List (String × Check)}
    (h : ∀ check ∈ checks, P check.2 ∧ ∀ part ∈ check.2.parts, Every P part) :
    Every P (ofChecks checks) :=
  .intro (fun check hcheck => (h check (mem_ofChecks.mp hcheck)).1)
    fun check hcheck => (h check (mem_ofChecks.mp hcheck)).2

end RuleOf

namespace Registry

variable {registry : Registry}

theorem Builds.parts_eq_nil [Engine] {args : Args} {check : Check}
    (h : registry.Builds args [] check) :
    check.parts = [] := by
  obtain ⟨entry, -, hbuild⟩ := h
  refine List.eq_nil_iff_forall_not_mem.mpr fun part hpart => ?_
  simpa using (Entry.build_parts hbuild).1 part hpart

-- What holds of the checks without parts, and of those that are built from parts, holds
-- of the checks of a compiled rule at every depth, as long as the parts of a rule ask for
-- no more than the rule.
theorem compileRule_every_of [Engine] {P : Check → Prop} {Q : Spec → Prop}
    (hplain : ∀ args check, registry.Builds args [] check → P check)
    (hparts : ∀ field d entry parts rules check, Q (.descriptor d) →
      registry.resolve d.kind = some entry → entry.parts (d.args field) = .ok parts →
      rules.map (·.1) = parts.map (·.1) → entry.build (d.args field) rules = .ok check →
      P check ∧ ∀ part ∈ parts, Q part.2)
    {field : String} {spec : Spec} {rule : Rule} (hspec : Q spec)
    (h : registry.compileRule field spec = .ok rule) : rule.Every P := by
  have hflat {check : String × Check} (hbuilt : registry.BuildsPlain check) :
      P check.2 ∧ ∀ part ∈ check.2.parts, part.Every P := by
    obtain ⟨args, -, hbuilt⟩ := hbuilt
    refine ⟨hplain _ _ hbuilt, ?_⟩
    simp [hbuilt.parts_eq_nil]
  refine compileRule_induction (motive := fun spec rule => Q spec → rule.Every P) ?_ ?_ h hspec
  · intro _ checks hchecks _
    exact RuleOf.every_ofChecks fun check hcheck => hflat (hchecks check hcheck)
  · intro field d entry parts rules check presence hentry hread hrel hbuild hpresence hd
    obtain ⟨hcheck, hasked⟩ := hparts field d entry parts rules check hd hentry hread
      (names_eq hrel) hbuild
    refine RuleOf.every_ofChecks fun other hother => ?_
    rcases List.mem_cons.mp hother with rfl | hother
    · refine ⟨hcheck, fun part hpart => ?_⟩
      obtain ⟨rule, hrule, rfl⟩ := List.mem_map.mp ((Entry.build_parts hbuild).1 part hpart)
      obtain ⟨source, hsource, -, -, hevery⟩ := exists_of_mem_right hrel hrule
      exact hevery (hasked source hsource)
    · exact hflat (hpresence other hother)

-- What the registry only ever builds, compiled rules only ever hold.
theorem compileRule_every [Engine] {P : Check → Prop}
    (hbuilds : ∀ args rules check, registry.Builds args rules check → P check)
    {field : String} {spec : Spec} {rule : Rule}
    (h : registry.compileRule field spec = .ok rule) : rule.Every P := by
  refine compileRule_every_of (Q := fun _ => True) (fun _ _ hbuilt => hbuilds _ _ _ hbuilt) ?_
    trivial h
  intro field d entry parts rules check _ hentry _ _ hbuild
  exact ⟨hbuilds _ _ _ ⟨entry, hentry, hbuild⟩, fun _ _ => trivial⟩

-- A check whose parts are rules that the registry compiles.
def HoldsCompiled [Engine] (registry : Registry) (check : Check) : Prop :=
  ∀ part ∈ check.parts, ∃ field spec, registry.compileRule field spec = .ok part

-- The rules inside a compiled rule are compiled rules.
theorem compileRule_holdsCompiled [Engine] {field : String} {spec : Spec} {rule : Rule}
    (h : registry.compileRule field spec = .ok rule) : rule.Every registry.HoldsCompiled := by
  have hflat {check : String × Check} (hbuilt : registry.BuildsPlain check) :
      registry.HoldsCompiled check.2 ∧
        ∀ part ∈ check.2.parts, part.Every registry.HoldsCompiled := by
    obtain ⟨args, -, hbuilt⟩ := hbuilt
    simp [HoldsCompiled, hbuilt.parts_eq_nil]
  refine compileRule_induction (motive := fun _ rule => rule.Every registry.HoldsCompiled) ?_ ?_ h
  · exact fun _ checks hchecks => RuleOf.every_ofChecks fun check hcheck =>
      hflat (hchecks check hcheck)
  · intro field d entry parts rules check presence _ _ hrel hbuild hpresence
    refine RuleOf.every_ofChecks fun other hother => ?_
    rcases List.mem_cons.mp hother with rfl | hother
    · have hparts : ∀ part ∈ check.parts, (∃ name spec, registry.compileRule name spec = .ok part) ∧
          part.Every registry.HoldsCompiled := by
        intro part hpart
        obtain ⟨rule, hrule, rfl⟩ := List.mem_map.mp ((Entry.build_parts hbuild).1 part hpart)
        obtain ⟨source, -, -, hcompiled, hevery⟩ := exists_of_mem_right hrel hrule
        exact ⟨⟨_, _, hcompiled⟩, hevery⟩
      exact ⟨fun part hpart => (hparts part hpart).1, fun part hpart => (hparts part hpart).2⟩
    · exact hflat (hpresence other hother)

theorem compile_every [Engine] {P : Check → Prop}
    (hbuilds : ∀ args rules check, registry.Builds args rules check → P check)
    {schema : Schema} {rules : RuleSet} (h : registry.compile schema = .ok rules)
    {field : String × Rule} (hmem : field ∈ rules.fields) : field.2.Every P := by
  rw [compile_eq_parts] at h
  obtain ⟨fields, hfields, rfl⟩ := map_eq_ok_iff.mp h
  obtain ⟨part, -, -, hrule⟩ := exists_of_mem_right (compileParts_eq_ok_iff.mp hfields) hmem
  exact compileRule_every hbuilds hrule

-- A registry that starts empty or with the catalogue and grows by the checks that
-- users describe.
inductive Registered [Engine] : Registry → Prop
  | catalogue : Registered {}
  | empty : Registered .empty
  | register {registry next : Registry} {name : String} {check : CustomCheck}
      {message : Option String} {code : Option ErrorCode} (base : Registered registry)
      (added : registry.register name check message code = (next, .ok ())) : Registered next

theorem Registered.eq_custom [Engine] (h : registry.Registered) {name : String}
    {extension : Extension}
    (hadded : Members.get? name registry.added = some extension) :
    ∃ matcher template code params, extension = .custom matcher template code params := by
  induction h with
  | catalogue => simp [Members.get?] at hadded
  | empty => simp [Members.get?, Registry.empty] at hadded
  | @register registry next key check message code base added ih =>
      obtain ⟨-, m, -, rfl⟩ := register_eq_ok_iff.mp added
      rw [add, Members.get?_set] at hadded
      split at hadded
      · cases hadded
        exact ⟨_, _, _, _, rfl⟩
      · exact ih hadded

theorem get?_added_of_resolve {name : String} {extension : Extension}
    (h : registry.resolve name = some (.extension extension)) :
    Members.get? name registry.added = some extension := by
  unfold resolve at h
  cases hadded : Members.get? name registry.added with
  | none =>
      simp only [hadded, Option.map_none, Option.none_or, Option.map_eq_some_iff] at h
      obtain ⟨builtin, -, h⟩ := h
      cases h
  | some added =>
      simp only [hadded, Option.map_some, Option.some_or, Option.some.injEq] at h
      cases h
      rfl

theorem Builds.isBuiltin [Engine] {args : Args} {rules : List (String × Rule)} {check : Check}
    (h : Builds {} args rules check) : check.IsBuiltin := by
  obtain ⟨entry, hentry, hbuild⟩ := h
  cases entry with
  | builtin builtin => exact builtin.build_isBuiltin hbuild
  | extension extension => simpa [Members.get?] using get?_added_of_resolve hentry

theorem Builds.isOrdinary [Engine] (hregistry : registry.Registered) {args : Args}
    {rules : List (String × Rule)} {check : Check} (h : registry.Builds args rules check) :
    check.IsOrdinary := by
  obtain ⟨entry, hentry, hbuild⟩ := h
  cases entry with
  | builtin builtin => exact (builtin.build_isBuiltin hbuild).isOrdinary
  | extension extension =>
      obtain ⟨matcher, template, code, params, rfl⟩ :=
        hregistry.eq_custom (get?_added_of_resolve hentry)
      cases hbuild
      trivial

end Registry

end Rulebook
