import Rulebook.Compile.Builds
import Rulebook.Proofs.Compile.Provenance

namespace Rulebook

open Outcome

namespace Tracing

variable {α β : Type}

-- A compilation gives the result whatever is in the list, and only adds to the list. What it adds
-- for a result is as the property says.
def Traces (t : Tracing α) (result : Except SetupError α) (P : List Args → α → Prop) : Prop :=
  ∀ log, ∃ asked, t.run.run log = (result, log ++ asked) ∧ ∀ a, result = .ok a → P asked a

namespace Traces

variable {t : Tracing α} {result : Except SetupError α} {P : List Args → α → Prop}

theorem lift (h : ∀ a, result = .ok a → P [] a) : Traces (liftM result) result P :=
  fun log => ⟨[], by rw [run_lift, List.append_nil], h⟩

theorem ret {a : α} (h : P [] a) : Traces (pure a) (.ok a) P :=
  fun log => ⟨[], by rw [run_pure, List.append_nil], by rintro _ ⟨⟩; exact h⟩

theorem bind {f : α → Tracing β} {g : α → Except SetupError β} {Q : α → List Args → β → Prop}
    {R : List Args → β → Prop} (ht : Traces t result P)
    (hf : ∀ a, result = .ok a → Traces (f a) (g a) (Q a))
    (h : ∀ a first rest b, P first a → Q a rest b → R (first ++ rest) b) :
    Traces (t >>= f) (result >>= g) R := by
  intro log
  obtain ⟨first, hfirst, hP⟩ := ht log
  rw [run_bind, hfirst]
  cases result with
  | error error => exact ⟨first, rfl, nofun⟩
  | ok a =>
      obtain ⟨rest, hrest, hQ⟩ := hf a rfl (log ++ first)
      refine ⟨first ++ rest, ?_, fun b hb => h a first rest b (hP a rfl) (hQ b hb)⟩
      rw [← List.append_assoc]
      exact hrest

-- A value that is made from the result adds nothing to the list.
theorem andReturn {f : α → β} {R : List Args → β → Prop} (ht : Traces t result P)
    (h : ∀ asked a, P asked a → R asked (f a)) :
    Traces (do return f (← t)) (do .ok (f (← result))) R := by
  refine ht.bind (Q := fun a asked b => asked = [] ∧ b = f a) (fun a _ => ret ⟨rfl, rfl⟩) ?_
  rintro a asked _ _ hasked ⟨rfl, rfl⟩
  rw [List.append_nil]
  exact h asked a hasked

theorem map {f : α → β} {R : List Args → β → Prop} (ht : Traces t result P)
    (h : ∀ asked a, P asked a → R asked (f a)) :
    Traces (do return f (← t)) (result.map f) R := by
  have hmap : result.map f = (do .ok (f (← result))) := by
    cases result <;> rfl
  rw [hmap]
  exact ht.andReturn h

theorem mapM {f : β → Tracing α} {g : β → Except SetupError α} {R : List Args → List α → Prop}
    {xs : List β} (h : ∀ x ∈ xs, Traces (f x) (g x) P) (hnil : R [] [])
    (hcons : ∀ first a rest as, P first a → R rest as → R (first ++ rest) (a :: as)) :
    Traces (xs.mapM f) (xs.mapM g) R := by
  induction xs with
  | nil => exact ret hnil
  | cons x xs ih =>
      obtain ⟨hx, hrest⟩ := List.forall_mem_cons.mp h
      rw [List.mapM_cons, List.mapM_cons]
      refine hx.bind (Q := fun a rest as => ∃ tail, as = a :: tail ∧ R rest tail) (fun a _ => ?_) ?_
      · exact (ih hrest).andReturn fun rest tail htail => ⟨tail, rfl, htail⟩
      · rintro a first rest _ hfirst ⟨tail, rfl, htail⟩
        exact hcons first a rest tail hfirst htail

theorem mono {Q : List Args → α → Prop} (h : Traces t result P)
    (himp : ∀ asked a, P asked a → Q asked a) : Traces t result Q := fun log => by
  obtain ⟨asked, hrun, hP⟩ := h log
  exact ⟨asked, hrun, fun a ha => himp asked a (hP a ha)⟩

end Traces

-- A check is asked for before its parts are compiled.
theorem traces_build [Engine] {entry : Entry} {args : Args} {t : Tracing (List (String × Rule))}
    {result : Except SetupError (List (String × Rule))}
    {P : List Args → List (String × Rule) → Prop} (ht : Traces t result P) :
    Traces (build entry args t) (result >>= entry.build args)
      fun asked check => ∃ inner parts, asked = args :: inner ∧ P inner parts ∧
        entry.build args parts = .ok check := by
  intro log
  obtain ⟨inner, hinner, hP⟩ := ht (log ++ [args])
  refine ⟨args :: inner, ?_, ?_⟩
  · simp only [build, run_bind, run_modify, hinner]
    cases result with
    | error error => simp [Bind.bind, Except.bind]
    | ok parts => simp [Bind.bind, Except.bind, run_lift]
  · intro check hcheck
    obtain ⟨parts, hparts, hbuild⟩ := bind_eq_ok_iff.mp hcheck
    exact ⟨inner, parts, rfl, hP parts hparts, hbuild⟩

end Tracing

namespace Registry

variable [Engine] (registry : Registry)

-- A check is built from something that was asked for.
def From (asked : List Args) (check : Check) : Prop :=
  ∃ args ∈ asked, ∃ parts, registry.Builds args parts check

-- Everything that was asked for is built.
def BuildsAll (asked : List Args) : Prop :=
  ∀ args ∈ asked, ∃ parts check, registry.Builds args parts check

-- The list of a compilation that gives the checks: all that is in it is built, and they and, at
-- any depth, the checks of their parts are built from it.
structure Explains (asked : List Args) (checks : List (String × Check)) : Prop where
  all : registry.BuildsAll asked
  built : ∀ check ∈ checks, registry.From asked check.2
  parts : ∀ check ∈ checks, ∀ part ∈ check.2.parts, part.Every (registry.From asked)

variable {registry} {asked first rest : List Args} {checks more : List (String × Check)}

theorem From.mono {check : Check} (h : registry.From asked check) (hsub : asked ⊆ rest) :
    registry.From rest check := by
  obtain ⟨args, hargs, hbuilds⟩ := h
  exact ⟨args, hsub hargs, hbuilds⟩

theorem BuildsAll.append (h : registry.BuildsAll first) (hrest : registry.BuildsAll rest) :
    registry.BuildsAll (first ++ rest) :=
  List.forall_mem_append.mpr ⟨h, hrest⟩

theorem Explains.nil : registry.Explains [] [] :=
  ⟨nofun, nofun, nofun⟩

theorem Explains.append (h : registry.Explains first checks) (hmore : registry.Explains rest more) :
    registry.Explains (first ++ rest) (checks ++ more) := by
  have hfirst : first ⊆ first ++ rest := List.subset_append_left first rest
  have hrest : rest ⊆ first ++ rest := List.subset_append_right first rest
  refine ⟨h.all.append hmore.all, ?_, ?_⟩
  · exact List.forall_mem_append.mpr
      ⟨fun check hcheck => (h.built check hcheck).mono hfirst,
        fun check hcheck => (hmore.built check hcheck).mono hrest⟩
  · exact List.forall_mem_append.mpr
      ⟨fun check hcheck part hpart => (h.parts check hcheck part hpart).mono
          fun _ hfrom => hfrom.mono hfirst,
        fun check hcheck part hpart => (hmore.parts check hcheck part hpart).mono
          fun _ hfrom => hfrom.mono hrest⟩

theorem Explains.every (h : registry.Explains asked checks) :
    (RuleOf.ofChecks checks).Every (registry.From asked) :=
  RuleOf.every_ofChecks fun check hcheck => ⟨h.built check hcheck, h.parts check hcheck⟩

-- A check is explained by what it is asked for with and by what explains its parts.
theorem Explains.build {entry : Entry} {args : Args} {parts : List (String × Rule)} {check : Check}
    (hentry : registry.resolve args.rule = some entry) (hbuild : entry.build args parts = .ok check)
    (hall : registry.BuildsAll asked)
    (hparts : ∀ part ∈ parts, part.2.Every (registry.From asked)) :
    registry.Explains (args :: asked) [(args.rule, check)] := by
  have hbuilds : registry.Builds args parts check := ⟨entry, hentry, hbuild⟩
  refine ⟨List.forall_mem_cons.mpr ⟨⟨parts, check, hbuilds⟩, hall⟩, ?_, ?_⟩
  · exact List.forall_mem_singleton.mpr ⟨args, List.mem_cons_self, parts, hbuilds⟩
  · refine List.forall_mem_singleton.mpr fun part hpart => ?_
    obtain ⟨inner, hinner, rfl⟩ := List.mem_map.mp ((Entry.build_parts hbuild).1 part hpart)
    exact (hparts inner hinner).mono fun _ hfrom => hfrom.mono (List.subset_cons_self args asked)

omit [Engine] in
theorem traces_lookup (name : String) : Tracing.Traces (liftM (registry.lookup name))
    (registry.lookup name) fun asked entry => asked = [] ∧ registry.resolve name = some entry :=
  .lift fun _ hentry => ⟨rfl, lookup_eq_ok_iff.mp hentry⟩

-- A check without parts, by the name under which its entry is found.
theorem traces_plain {name : String} {args : Entry → Args}
    (hname : ∀ entry, (args entry).rule = name) :
    Tracing.Traces
      (do
        let entry ← registry.lookup name
        return (name, ← Tracing.build entry (args entry) (pure [])))
      (do
        let entry ← registry.lookup name
        .ok (name, ← entry.build (args entry) []))
      fun asked check => registry.Explains asked [check] := by
  refine (traces_lookup name).bind
    (Q := fun entry asked check =>
      registry.resolve name = some entry → registry.Explains asked [check])
    (fun entry hentry => ?_) ?_
  · have hparts : Tracing.Traces (pure []) (.ok ([] : List (String × Rule)))
        fun asked parts => asked = [] ∧ parts = [] := .ret ⟨rfl, rfl⟩
    refine (Tracing.traces_build hparts).andReturn ?_
    rintro _ check ⟨inner, parts, rfl, ⟨rfl, rfl⟩, hbuild⟩ hresolve
    rw [← hname entry] at hresolve ⊢
    exact .build hresolve hbuild nofun nofun
  · rintro entry _ asked check ⟨rfl, hentry⟩ hexplains
    exact hexplains hentry

theorem traces_token (field : String) (token : Token) :
    Tracing.Traces (registry.traceToken field token) (registry.buildToken field token)
      fun asked check => registry.Explains asked [check] :=
  traces_plain fun _ => rfl

theorem traces_buildPlain (field name : String) (options : List (String × Json)) :
    Tracing.Traces (registry.tracePlain field name options) (registry.buildPlain field name options)
      fun asked check => registry.Explains asked [check] :=
  traces_plain fun _ => rfl

theorem traces_presence (field : String) (d : Descriptor) :
    Tracing.Traces (registry.tracePresence field d) (registry.buildPresence field d)
      registry.Explains := by
  unfold tracePresence buildPresence
  split
  · exact (traces_buildPlain field RuleOf.requiredName []).map fun _ _ hexplains => hexplains
  · exact .ret .nil

-- The list of a compilation that gives rules.
structure ExplainsRules (registry : Registry) (asked : List Args) (rules : List Rule) : Prop where
  all : registry.BuildsAll asked
  every : ∀ rule ∈ rules, rule.Every (registry.From asked)

theorem ExplainsRules.append {rules others : List Rule} (h : registry.ExplainsRules first rules)
    (hothers : registry.ExplainsRules rest others) :
    registry.ExplainsRules (first ++ rest) (rules ++ others) := by
  refine ⟨h.all.append hothers.all, List.forall_mem_append.mpr ⟨?_, ?_⟩⟩
  · exact fun rule hrule => (h.every rule hrule).mono fun _ hfrom =>
      hfrom.mono (List.subset_append_left first rest)
  · exact fun rule hrule => (hothers.every rule hrule).mono fun _ hfrom =>
      hfrom.mono (List.subset_append_right first rest)

theorem Explains.rule (h : registry.Explains asked checks) :
    registry.ExplainsRules asked [.ofChecks checks] :=
  ⟨h.all, List.forall_mem_singleton.mpr h.every⟩

def traceParts (registry : Registry) (parts : List (String × Spec)) :
    Tracing (List (String × Rule)) :=
  parts.mapM fun part => do return (part.1, ← registry.traceRule part.1 part.2)

theorem traceRule_descriptor (field : String) (d : Descriptor) :
    registry.traceRule field (.descriptor d) = (do
      let entry ← registry.lookup d.kind
      let check ← Tracing.build entry (d.args field) (do
        let parts ← entry.parts (d.args field)
        registry.traceParts parts)
      let presence ← registry.tracePresence field d
      return .ofChecks ((d.kind, check) :: presence)) := by
  have hok {α : Type} (a : α) : (liftM (Except.ok a : Except SetupError α) : Tracing α) = pure a :=
    rfl
  rw [traceRule]
  unfold lookup Descriptor.args
  split
  · rename_i hentry
    simp only [hentry]
    rfl
  · rename_i entry hentry
    simp only [hentry, hok, pure_bind]
    split
    · rename_i hparts
      simp only [hparts]
      rfl
    · rename_i parts hparts
      simp only [hparts, hok, pure_bind, traceParts]
      rw [List.mapM_subtype
        (g := fun part => do return (part.1, ← registry.traceRule part.1 part.2))
        (fun _ _ => rfl), List.unattach_attach]

theorem traces_parts {parts : List (String × Spec)}
    (h : ∀ part ∈ parts, Tracing.Traces (registry.traceRule part.1 part.2)
      (registry.compileRule part.1 part.2) fun asked rule => registry.ExplainsRules asked [rule]) :
    Tracing.Traces (registry.traceParts parts) (registry.compileParts parts)
      fun asked rules => registry.ExplainsRules asked (rules.map (·.2)) := by
  refine .mapM (P := fun asked rule => registry.ExplainsRules asked [rule.2]) (fun part hpart => ?_)
    ⟨nofun, nofun⟩ fun first rule rest rules hrule hrules => hrule.append hrules
  exact (h part hpart).map fun _ _ hexplains => hexplains

-- A check is explained by what it is asked for with and by the list of its parts.
theorem traces_check {field : String} {d : Descriptor} {entry : Entry}
    (hentry : registry.resolve d.kind = some entry)
    (h : ∀ parts, entry.parts (d.args field) = .ok parts → ∀ part ∈ parts,
      Tracing.Traces (registry.traceRule part.1 part.2) (registry.compileRule part.1 part.2)
        fun asked rule => registry.ExplainsRules asked [rule]) :
    Tracing.Traces
      (Tracing.build entry (d.args field) do
        let parts ← entry.parts (d.args field)
        registry.traceParts parts)
      (entry.parts (d.args field) >>= registry.compileParts >>= entry.build (d.args field))
      fun asked check => registry.Explains asked [(d.kind, check)] := by
  have hparts : Tracing.Traces
      (do let parts ← entry.parts (d.args field); registry.traceParts parts)
      (entry.parts (d.args field) >>= registry.compileParts)
      fun asked rules => registry.ExplainsRules asked (rules.map (·.2)) := by
    refine (Tracing.Traces.lift (P := fun asked parts => asked = []) fun _ _ => rfl).bind
      (Q := fun _ asked rules => registry.ExplainsRules asked (rules.map (·.2)))
      (fun parts hread => traces_parts (h parts hread)) ?_
    rintro parts _ asked rules rfl hexplains
    exact hexplains
  refine (Tracing.traces_build hparts).mono ?_
  rintro _ check ⟨inner, parts, rfl, hexplains, hbuild⟩
  exact .build hentry hbuild hexplains.all fun part hpart =>
    hexplains.every part.2 (List.mem_map_of_mem hpart)

theorem traces_descriptor {field : String} {d : Descriptor}
    (h : ∀ entry parts, registry.resolve d.kind = some entry →
      entry.parts (d.args field) = .ok parts → ∀ part ∈ parts,
        Tracing.Traces (registry.traceRule part.1 part.2) (registry.compileRule part.1 part.2)
          fun asked rule => registry.ExplainsRules asked [rule]) :
    Tracing.Traces (registry.traceRule field (.descriptor d))
      (registry.compileRule field (.descriptor d))
      fun asked rule => registry.ExplainsRules asked [rule] := by
  rw [traceRule_descriptor, compileRule_descriptor]
  refine (traces_lookup d.kind).bind (Q := fun _ asked rule => registry.ExplainsRules asked [rule])
    (fun entry hentry => ?_) ?_
  · have hresolve := lookup_eq_ok_iff.mp hentry
    have hcheck := traces_check hresolve fun parts => h entry parts hresolve
    have hassoc (finish : Check → Except SetupError Rule) :
        (do
          let parts ← entry.parts (d.args field)
          let rules ← registry.compileParts parts
          let check ← entry.build (d.args field) rules
          finish check) =
        entry.parts (d.args field) >>= registry.compileParts >>= entry.build (d.args field) >>=
          finish := by
      simp only [bind_assoc]
    rw [hassoc]
    refine hcheck.bind (Q := fun check asked rule => ∃ presence, registry.Explains asked presence ∧
      rule = RuleOf.ofChecks ((d.kind, check) :: presence)) (fun check _ => ?_) ?_
    · exact (traces_presence field d).andReturn fun _ presence hpresence =>
        ⟨presence, hpresence, rfl⟩
    · rintro check first rest _ hfirst ⟨presence, hrest, rfl⟩
      exact (hfirst.append hrest).rule
  · rintro entry _ asked rule ⟨rfl, -⟩ hexplains
    exact hexplains

-- One case for each kind of rule: a rule compiles as it does without the list, and the list
-- explains it.
theorem traces_rule (field : String) (spec : Spec) :
    Tracing.Traces (registry.traceRule field spec) (registry.compileRule field spec)
      fun asked rule => registry.ExplainsRules asked [rule] := by
  -- Parts are lighter than the descriptor that holds them.
  induction hweight : spec.weight using Nat.strongRecOn generalizing field spec with
  | _ weight ih =>
      cases spec with
      | pipe source =>
          rw [traceRule, compileRule]
          have hchecks : Tracing.Traces ((Token.readAll source).mapM (registry.traceToken field))
              ((Token.readAll source).mapM (registry.buildToken field)) registry.Explains :=
            .mapM (fun token _ => traces_token field token) .nil
              fun first check rest checks hcheck hchecks => hcheck.append hchecks
          exact hchecks.andReturn fun _ _ hexplains => hexplains.rule
      | values allowed =>
          rw [traceRule, compileRule]
          exact (traces_buildPlain field "enum" [("values", .arr allowed)]).andReturn
            fun _ _ hexplains => hexplains.rule
      | pattern source =>
          rw [traceRule, compileRule]
          exact (traces_buildPlain field "string" [("format", .str source)]).andReturn
            fun _ _ hexplains => hexplains.rule
      | descriptor d =>
          refine traces_descriptor fun entry parts hentry hparts part hpart => ?_
          exact ih _ (hweight ▸ weight_part_lt hentry hparts hpart) part.1 part.2 rfl

theorem traces_schema (registry : Registry) (schema : Schema) :
    Tracing.Traces (registry.trace schema) (registry.compile schema)
      fun asked rules => registry.ExplainsRules asked (rules.fields.map (·.2)) := by
  rw [compile_eq_parts]
  exact (traces_parts fun part _ => traces_rule part.1 part.2).map fun _ _ hexplains => hexplains

-- Keeping the list changes nothing about what compiles and how it fails.
theorem trace_compile (schema : Schema) :
    ((registry.trace schema).run.run []).1 = registry.compile schema := by
  obtain ⟨asked, hrun, -⟩ := traces_schema registry schema []
  rw [hrun]

-- Where a schema compiles, the list holds what its checks are built from and nothing else: all
-- that is in it is built, and every check of a field, at any depth, is built from it.
theorem builds_of_compile {schema : Schema} {rules : RuleSet}
    (h : registry.compile schema = .ok rules) :
    registry.BuildsAll (registry.builds schema) ∧
      ∀ field ∈ rules.fields, field.2.Every (registry.From (registry.builds schema)) := by
  obtain ⟨asked, hrun, hexplains⟩ := traces_schema registry schema []
  have hbuilds : registry.builds schema = asked := by
    rw [builds, hrun, List.nil_append]
  rw [hbuilds]
  exact ⟨(hexplains rules h).all, fun field hfield =>
    (hexplains rules h).every field.2 (List.mem_map_of_mem hfield)⟩

end Registry

end Rulebook
