import Mathlib.Data.List.Chain
import Mathlib.Logic.Relation
import Rulebook.Proofs.Compile.Distinct
import Rulebook.Regex.Engine

namespace Rulebook

open Json (depthMembers)
open Outcome

theorem Spec.depth_options_lt {field : String} {value : Json} {d : Descriptor}
    (h : Spec.ofJson field value = .ok (.descriptor d)) :
    depthMembers d.options < value.depth := by
  cases value with
  | obj members =>
      obtain ⟨read, hread, heq⟩ := map_eq_ok_iff.mp h
      cases heq
      rw [Json.depth]
      exact Nat.lt_succ_of_le (Descriptor.depth_options hread)
  | null | bool b | num n | str s | arr items => cases h

-- What is compiled: a schema, or the rule of a field.
inductive Declaration
  | schema (value : Json)
  | rule (field : String) (value : Json)

namespace Declaration

def depth : Declaration → Nat
  | schema value => value.depth
  | rule _ value => value.depth

-- A bound on the declarations that can stand inside one another.
def rank : Declaration → Nat
  | schema value => 2 * value.depth
  | rule field value =>
      match Spec.ofJson field value with
      | .ok spec => spec.weight + 1
      | .error _ => 1

theorem rank_rule {field : String} {value : Json} {spec : Spec}
    (h : Spec.ofJson field value = .ok spec) : (rule field value).rank = spec.weight + 1 := by
  rw [rank, h]

theorem rank_rule_le (field : String) (value : Json) :
    (rule field value).rank ≤ 2 * value.depth - 1 + 1 := by
  rw [rank]
  split
  · next spec hspec => exact Nat.succ_le_succ (Spec.weight_le hspec)
  · exact Nat.le_add_left _ _

end Declaration

namespace Registry

-- What is compiled on the way: the fields of a schema, the schema of an object, and the
-- rule of the elements of an array.
inductive Needs (registry : Registry) : Declaration → Declaration → Prop
  | field {members : List (String × Json)} {field : String} {value : Json}
      (hmem : (field, value) ∈ members) :
      Needs registry (.schema (.obj members)) (.rule field value)
  | object {field : String} {value : Json} {d : Descriptor} {schema : Json}
      (hread : Spec.ofJson field value = .ok (.descriptor d))
      (hentry : registry.resolve d.kind = some (.builtin .object))
      (hschema : (d.args field).get? "rule" = some schema) :
      Needs registry (.rule field value) (.schema schema)
  | array {field : String} {value : Json} {d : Descriptor} {element : Json}
      (hread : Spec.ofJson field value = .ok (.descriptor d))
      (hentry : registry.resolve d.kind = some (.builtin .array))
      (helement : Builtin.elementRule ((d.args field).get? "itemType")
        ((d.args field).get? "rule") = some element) :
      Needs registry (.rule field value) (.rule field element)

variable {registry : Registry} {outer inner : Declaration}

-- The rule of an array whose elements are objects: it puts the schema of the elements, if
-- there is one, into a descriptor that was not there.
def Wraps (registry : Registry) (outer inner : Declaration) : Prop :=
  ∃ field value d, outer = .rule field value ∧ Spec.ofJson field value = .ok (.descriptor d) ∧
    registry.resolve d.kind = some (.builtin .array) ∧
    inner = .rule field (Builtin.objectRule ((d.args field).get? "rule"))

-- What is needed is less deep, but for a descriptor that an array puts around the schema of
-- its elements, which is as deep as the rule of the array at most.
theorem Needs.depth_lt_or (h : registry.Needs outer inner) :
    inner.depth < outer.depth ∨ registry.Wraps outer inner ∧ inner.depth ≤ outer.depth := by
  cases h with
  | @field members field value hmem =>
      left
      have hdepth : value.depth ≤ depthMembers members := Json.depth_le_of_mem hmem
      simp only [Declaration.depth, Json.depth]
      omega
  | object hread hentry hschema =>
      left
      have hdepth := Json.depth_le_of_present hschema
      exact hdepth.trans_lt (Spec.depth_options_lt hread)
  | @array field value d element hread hentry helement =>
      have hlt := Spec.depth_options_lt hread
      rcases Builtin.elementRule_cases helement with hitem | hrule | rfl
      · exact .inl ((Json.depth_le_of_present hitem).trans_lt hlt)
      · exact .inl ((Json.depth_le_of_present hrule).trans_lt hlt)
      · refine .inr ⟨⟨field, value, d, rfl, hread, hentry, rfl⟩, ?_⟩
        cases hrule : (d.args field).get? "rule" with
        | none =>
            simp only [Declaration.depth, Builtin.objectRule, Option.map_none, Option.toList_none,
              Json.depth, depthMembers]
            omega
        | some schema =>
            have hdepth : schema.depth ≤ depthMembers d.options := Json.depth_le_of_present hrule
            simp only [Declaration.depth, Builtin.objectRule, Option.map_some, Option.toList_some,
              Json.depth, depthMembers]
            omega

theorem parts_array {d : Descriptor} {field : String} {element : Json} {spec : Spec}
    (helement : Builtin.elementRule ((d.args field).get? "itemType")
      ((d.args field).get? "rule") = some element)
    (hread : Spec.ofJson field element = .ok spec) :
    Entry.parts (d.args field) (.builtin .array) = .ok [(field, spec)] := by
  have hfield : (d.args field).field = field := rfl
  rw [Entry.parts, Builtin.parts, helement]
  simp only [hfield, hread]
  rfl

theorem Needs.rank_lt (h : registry.Needs outer inner) : inner.rank < outer.rank := by
  cases h with
  | @field members field value hmem =>
      have hdepth : value.depth ≤ depthMembers members := Json.depth_le_of_mem hmem
      have hrank := Declaration.rank_rule_le field value
      simp only [Declaration.rank, Json.depth] at hrank ⊢
      omega
  | object hread hentry hschema =>
      have hdepth := Json.depth_le_of_present hschema
      rw [Declaration.rank_rule hread]
      simp only [Declaration.rank, Spec.weight, Descriptor.weight, Descriptor.args] at hdepth ⊢
      omega
  | @array field value d element hread hentry helement =>
      rw [Declaration.rank_rule hread]
      have hname := Builtin.eq_array_of_named (named_of_resolve hentry)
      cases helementRead : Spec.ofJson field element with
      | error fault =>
          simp only [Declaration.rank, helementRead, Spec.weight, Descriptor.weight, hname,
            if_true]
          omega
      | ok spec =>
          rw [Declaration.rank_rule helementRead]
          have hresolve : registry.resolve (d.args field).rule = some (.builtin .array) := hentry
          have hparts := parts_array helement helementRead
          exact Nat.succ_lt_succ (weight_part_lt hresolve hparts (List.mem_singleton_self _))

theorem wellFounded_needs (registry : Registry) :
    WellFounded fun inner outer => registry.Needs outer inner :=
  Subrelation.wf (fun h => h.rank_lt) (measure Declaration.rank).wf

-- Each declaration of a chain uses up some of the rank of the first one.
theorem length_le_rank {chain : List Declaration}
    (h : (outer :: chain).IsChain registry.Needs) : chain.length ≤ outer.rank := by
  induction chain generalizing outer with
  | nil => exact Nat.zero_le _
  | cons next rest ih =>
      obtain ⟨hneeds, hrest⟩ := List.isChain_cons_cons.mp h
      have hlt := hneeds.rank_lt
      have hle := ih hrest
      rw [List.length_cons]
      omega

-- Nothing is compiled for a rule but what it needs.
theorem needs_part {field : String} {value : Json} {d : Descriptor} {entry : Entry}
    {parts : List (String × Spec)} (hread : Spec.ofJson field value = .ok (.descriptor d))
    (hentry : registry.resolve d.kind = some entry)
    (hparts : entry.parts (d.args field) = .ok parts) {part : String × Spec}
    (hmem : part ∈ parts) :
    ∃ inner, Spec.ofJson part.1 inner = .ok part.2 ∧
      Relation.TransGen registry.Needs (.rule field value) (.rule part.1 inner) := by
  cases entry with
  | extension extension =>
      cases hparts
      cases hmem
  | builtin builtin =>
      cases builtin
      case object =>
        simp only [Entry.parts, Builtin.parts] at hparts
        split at hparts
        · next schema hschema =>
            obtain ⟨source, hsource, rfl⟩ := map_eq_ok_iff.mp hparts
            cases schema with
            | obj members =>
                obtain ⟨fields, hfields, rfl⟩ := map_eq_ok_iff.mp hsource
                obtain ⟨member, hmember, hname, hspec⟩ :=
                  exists_of_mem_right (Schema.ofMembers_eq_ok_iff.mp hfields) hmem
                refine ⟨member.2, hname ▸ hspec, .tail (.single (.object hread hentry hschema)) ?_⟩
                exact .field (hname ▸ hmember)
            | null | bool b | num n | str s | arr items => cases hsource
        · cases hparts
          cases hmem
      case array =>
        simp only [Entry.parts, Builtin.parts] at hparts
        split at hparts
        · next element helement =>
            obtain ⟨spec, hspec, rfl⟩ := map_eq_ok_iff.mp hparts
            obtain rfl := List.mem_singleton.mp hmem
            exact ⟨element, hspec, .single (.array hread hentry helement)⟩
        · cases hparts
          cases hmem
      all_goals
        cases hparts
        cases hmem

theorem rank_lt_of_transGen (h : Relation.TransGen registry.Needs outer inner) :
    inner.rank < outer.rank := by
  induction h with
  | single h => exact h.rank_lt
  | tail _ h ih => exact h.rank_lt.trans ih

-- Compiles a rule with room for so many rules inside one another, the rule itself included.
-- There is no result when the room does not suffice.
def compileRuleWithin [Engine] (registry : Registry) :
    Nat → String → Spec → ExceptT SetupError Option Rule
  | 0, _, _ => ExceptT.mk none
  | room + 1, field, .descriptor d => do
      let entry ← registry.lookup d.kind
      let parts ← entry.parts (d.args field)
      let rules ← parts.mapM fun part => do
        return (part.1, ← compileRuleWithin registry room part.1 part.2)
      let check ← entry.build (d.args field) rules
      let presence ← registry.buildPresence field d
      return .ofChecks ((d.kind, check) :: presence)
  | _ + 1, field, spec => registry.compileRule field spec

def compileWithin [Engine] (registry : Registry) (room : Nat) (schema : Schema) :
    ExceptT SetupError Option RuleSet := do
  return ⟨← schema.fields.mapM fun field => do
    return (field.1, ← registry.compileRuleWithin room field.1 field.2)⟩

-- Two programs that begin with the same step and go on alike after it.
private theorem lift_bind_congr {α β : Type} {x : Except SetupError α}
    {f g : α → ExceptT SetupError Option β} (h : ∀ a, x = .ok a → f a = g a) :
    (liftM x >>= f) = liftM x >>= g := by
  cases x with
  | error fault => rfl
  | ok a => exact h a rfl

private theorem mapM_compileRuleWithin [Engine] {room : Nat} {parts : List (String × Spec)}
    (h : ∀ part ∈ parts, registry.compileRuleWithin room part.1 part.2 =
      liftM (registry.compileRule part.1 part.2)) :
    (parts.mapM fun part => do return (part.1, ← registry.compileRuleWithin room part.1 part.2)) =
      (liftM (registry.compileParts parts) : ExceptT SetupError Option (List (String × Rule))) := by
  induction parts with
  | nil => rfl
  | cons part rest ih =>
      obtain ⟨hpart, hrest⟩ := List.forall_mem_cons.mp h
      rw [List.mapM_cons, hpart, ih hrest, compileParts, compileParts, List.mapM_cons]
      cases registry.compileRule part.1 part.2 with
      | error fault => rfl
      | ok rule =>
          cases rest.mapM fun part => (registry.compileRule part.1 part.2).map (part.1, ·) <;> rfl

-- The room of the rank is enough: what is compiled inside a rule has a lower rank.
theorem compileRuleWithin_eq [Engine] {room : Nat} {field : String} {value : Json} {spec : Spec}
    (hread : Spec.ofJson field value = .ok spec)
    (hroom : (Declaration.rule field value).rank ≤ room) :
    registry.compileRuleWithin room field spec = liftM (registry.compileRule field spec) := by
  induction room generalizing field value spec with
  | zero =>
      rw [Declaration.rank_rule hread] at hroom
      omega
  | succ room ih =>
      cases spec with
      | pipe source => rfl
      | values allowed => rfl
      | pattern source => rfl
      | descriptor d =>
          rw [compileRuleWithin, compileRule_descriptor]
          simp only [liftM_bind]
          refine lift_bind_congr fun entry hentry => ?_
          refine lift_bind_congr fun parts hparts => ?_
          have hpart : ∀ part ∈ parts, registry.compileRuleWithin room part.1 part.2 =
              liftM (registry.compileRule part.1 part.2) := by
            intro part hmem
            obtain ⟨inner, hinner, hneeds⟩ :=
              needs_part hread (lookup_eq_ok_iff.mp hentry) hparts hmem
            have hlt := rank_lt_of_transGen hneeds
            exact ih hinner (by omega)
          rw [mapM_compileRuleWithin hpart]
          rfl

-- Two rules for each level of a schema are room enough.
theorem compileWithin_eq [Engine] {room : Nat} {value : Json} {schema : Schema}
    (hread : Schema.ofJson value = .ok schema) (hroom : 2 * value.depth ≤ room) :
    registry.compileWithin room schema = some (registry.compile schema) := by
  cases value with
  | obj members =>
      obtain ⟨fields, hfields, rfl⟩ := map_eq_ok_iff.mp hread
      have hfield : ∀ field ∈ fields, registry.compileRuleWithin room field.1 field.2 =
          liftM (registry.compileRule field.1 field.2) := by
        intro field hmem
        obtain ⟨member, hmember, hname, hspec⟩ :=
          exists_of_mem_right (Schema.ofMembers_eq_ok_iff.mp hfields) hmem
        have hneeds : registry.Needs (.schema (.obj members)) (.rule member.1 member.2) :=
          .field hmember
        have hlt : (Declaration.rule member.1 member.2).rank < 2 * (Json.obj members).depth :=
          hneeds.rank_lt
        rw [hname]
        exact compileRuleWithin_eq hspec (by omega)
      rw [compileWithin, mapM_compileRuleWithin hfield, compile_eq_parts]
      cases registry.compileParts fields <;> rfl
  | null | bool b | num n | str s | arr items => cases hread

-- Compiling comes to an end: whatever the registry, what is compiled on the way is less deep,
-- but for the one descriptor that an array may put around the schema of its elements. So no
-- more than two declarations for each level of a schema are ever inside one another, and a
-- compiler with room for no more than that makes the same of every schema.
theorem compile_descends [Engine] (registry : Registry) :
    (∀ {outer inner}, registry.Needs outer inner →
      inner.depth < outer.depth ∨ registry.Wraps outer inner ∧ inner.depth ≤ outer.depth) ∧
    (WellFounded fun inner outer => registry.Needs outer inner) ∧
    (∀ {value chain}, (Declaration.schema value :: chain).IsChain registry.Needs →
      chain.length ≤ 2 * value.depth) ∧
    (∀ {field value d entry parts}, Spec.ofJson field value = .ok (.descriptor d) →
      registry.resolve d.kind = some entry → entry.parts (d.args field) = .ok parts →
      ∀ part ∈ parts, ∃ inner, Spec.ofJson part.1 inner = .ok part.2 ∧
        Relation.TransGen registry.Needs (.rule field value) (.rule part.1 inner)) ∧
    ∀ {value schema}, Schema.ofJson value = .ok schema →
      ∀ room, 2 * value.depth ≤ room →
        registry.compileWithin room schema = some (registry.compile schema) := by
  refine ⟨fun h => h.depth_lt_or, wellFounded_needs registry, fun h => length_le_rank h, ?_, ?_⟩
  · intro field value d entry parts hread hentry hparts part hmem
    exact needs_part hread hentry hparts hmem
  · intro value schema hread room hroom
    exact compileWithin_eq hread hroom

end Registry

-- A list of people, where the rule of the list is as deep as the one put around the schema
-- of a person.
namespace Staff

def person : Json :=
  .obj [("name", .str "string")]

def list : Json :=
  .obj [("type", .str "array"), ("rule", person)]

def rules : Json :=
  .obj [("staff", list)]

def listRule : Descriptor :=
  { kind := "array", options := [("rule", person)] }

def personRule : Descriptor :=
  { kind := "object", options := [("rule", person)] }

def chain : List Declaration :=
  [.rule "staff" list, .rule "staff" (Builtin.objectRule (some person)), .schema person,
    .rule "name" (.str "string")]

theorem chain_needs : (Declaration.schema rules :: chain).IsChain (Registry.Needs {}) := by
  have hlist : Registry.Needs {} (.schema rules) (.rule "staff" list) :=
    .field (List.mem_singleton_self _)
  have helement : Registry.Needs {} (.rule "staff" list)
      (.rule "staff" (Builtin.objectRule (some person))) := .array (d := listRule) rfl rfl rfl
  have hperson : Registry.Needs {} (.rule "staff" (Builtin.objectRule (some person)))
      (.schema person) := .object (d := personRule) rfl rfl rfl
  have hname : Registry.Needs {} (.schema person) (.rule "name" (.str "string")) :=
    .field (List.mem_singleton_self _)
  simp only [chain, List.isChain_cons_cons, List.isChain_singleton, and_true]
  exact ⟨hlist, helement, hperson, hname⟩

end Staff

namespace Registry

open scoped Regex

theorem compile_descends_staff :
    ((Declaration.schema Staff.rules :: Staff.chain).IsChain (Needs {}) ∧
        Schema.ofJson Staff.rules = .ok ⟨[("staff", .descriptor Staff.listRule)]⟩) ∧
      4 ≤ 2 * Staff.rules.depth ∧
      compileWithin {} 6 ⟨[("staff", .descriptor Staff.listRule)]⟩ =
        some (compile {} ⟨[("staff", .descriptor Staff.listRule)]⟩) := by
  have hread : Schema.ofJson Staff.rules = .ok ⟨[("staff", .descriptor Staff.listRule)]⟩ := rfl
  have hdepth : Staff.rules.depth = 3 := by decide
  obtain ⟨-, -, hlength, -, hroom⟩ := compile_descends {}
  exact ⟨⟨Staff.chain_needs, hread⟩, hlength Staff.chain_needs, hroom hread 6 (by rw [hdepth])⟩

end Registry

end Rulebook
