import Rulebook.Proofs.Compile.Distinct
import Rulebook.Validator.Config

namespace Rulebook

open Outcome

-- The texts of an object of strings.
def Texts.Presents (texts : Texts) (value : Json) : Prop :=
  value = .obj (texts.map fun (name, text) => (name, .str text))

theorem Texts.ofJson?_eq_some_iff {value : Json} {texts : Texts} :
    ofJson? value = some texts ↔ texts.Presents value := by
  have hstring (member : String × Json) (entry : String × String) :
      member.2.string?.map (member.1, ·) = some entry ↔ member = (entry.1, .str entry.2) := by
    obtain ⟨name, value⟩ := member
    cases value <;> simp [Json.string?, Prod.ext_iff]
  cases value with
  | obj members =>
      simp only [ofJson?, mapM_eq_some_iff, hstring, Presents, Json.obj.injEq]
      rw [← List.forall₂_eq_eq_eq, List.forall₂_map_right_iff]
  | _ => simp [ofJson?, Presents]

namespace Config

-- Where the two settings of a configuration stand: under their names in an object, or in order in
-- a list that may end before them.
inductive Places : Json → Option Json → Option Json → Prop
  | object (members : List (String × Json)) :
      Places (.obj members) (Members.get? "messages" members)
        (Members.get? "indexArrayPaths" members)
  | none : Places (.arr []) none none
  | messages (value : Json) : Places (.arr [value]) (some value) none
  | both (value flag : Json) : Places (.arr [value, flag]) (some value) (some flag)

-- The configuration that a value gives. A setting that does not stand there has its default, and
-- there is no translator.
def Presents (config : Config) (value : Json) : Prop :=
  ∃ messages indexed, Places value messages indexed ∧
    (messages = none ∧ config.messages = [] ∨
      ∃ texts, messages = some texts ∧ config.messages.Presents texts) ∧
    (indexed = none ∧ config.indexArrayPaths = false ∨
      indexed = some (.bool config.indexArrayPaths)) ∧
    config.translator = none

theorem places?_eq_some_iff {value : Json} {messages indexed : Option Json} :
    places? value = some (messages, indexed) ↔ Places value messages indexed := by
  constructor
  · intro h
    unfold places? at h
    split at h <;> cases h <;> constructor
  · intro h
    cases h <;> rfl

theorem setting?_eq_some_iff {α : Type} {read? : Json → Option α} {default setting : α}
    {value : Option Json} : setting? read? default value = some setting ↔
      value = none ∧ setting = default ∨
        ∃ given, value = some given ∧ read? given = some setting := by
  cases value <;> simp [setting?, eq_comm]

theorem flag?_eq_some_iff {value : Json} {flag : Bool} :
    flag? value = some flag ↔ value = .bool flag := by
  cases value <;> simp [flag?]

theorem ofJson?_eq_some_iff {value : Json} {config : Config} :
    ofJson? value = some config ↔ config.Presents value := by
  obtain ⟨messages, indexArrayPaths, translator⟩ := config
  simp only [ofJson?, Option.bind_eq_bind, Option.bind_eq_some_iff, Prod.exists,
    places?_eq_some_iff, setting?_eq_some_iff, flag?_eq_some_iff, Texts.ofJson?_eq_some_iff,
    Presents, Option.some.injEq, mk.injEq]
  constructor
  · rintro ⟨given, flag, hplaces, texts, htexts, indexed, hindexed, rfl, rfl, rfl⟩
    refine ⟨given, flag, hplaces, htexts, ?_, rfl⟩
    simpa using hindexed
  · rintro ⟨given, flag, hplaces, htexts, hindexed, rfl⟩
    refine ⟨given, flag, hplaces, messages, htexts, indexArrayPaths, ?_, rfl, rfl, rfl⟩
    simpa using hindexed

end Config

namespace Descriptor

-- The flag that a member gives. It is off where there is none.
inductive GivesFlag : Option Json → Bool → Prop
  | absent : GivesFlag none false
  | null : GivesFlag (some .null) false
  | flag (b : Bool) : GivesFlag (some (.bool b)) b

-- The descriptor of an object with a type, which is not blank, and with or without a flag. All
-- other members are options.
structure Presents (d : Descriptor) (members : List (String × Json)) : Prop where
  kind : ∃ text : String, Members.get? "type" members = some (.str text) ∧
    (∃ c ∈ text.toList, Text.isBlank c = false) ∧ d.kind = Text.trim text
  required : GivesFlag (Members.get? "required" members) d.required
  options : d.options =
    members.filter fun member => member.1 ≠ "type" ∧ member.1 ≠ "required"

variable {field : String} {members : List (String × Json)}

theorem readKind_eq_ok_iff {kind : String} : readKind field members = .ok kind ↔
    ∃ text : String, Members.get? "type" members = some (.str text) ∧
      (∃ c ∈ text.toList, Text.isBlank c = false) ∧ kind = Text.trim text := by
  unfold readKind
  split
  · next text htext =>
      have hblank : Text.allBlank text = false ↔ ∃ c ∈ text.toList, Text.isBlank c = false := by
        rw [Text.allBlank, List.all_eq_false]
        simp only [Bool.not_eq_true]
      simp only [htext, Option.some.injEq, Json.str.injEq, exists_eq_left', ← hblank]
      cases Text.allBlank text <;> simp [eq_comm]
  · next h => simp [h]
  · next h => simp [h]
  · next other hstring hnull h =>
      simp only [h, reduceCtorEq, Option.some.injEq, false_iff]
      rintro ⟨text, rfl, -⟩
      exact hstring text rfl

theorem readRequired_eq_ok_iff {required : Bool} :
    readRequired field members = .ok required ↔
      GivesFlag (Members.get? "required" members) required := by
  constructor
  · intro h
    unfold readRequired at h
    split at h
    · next habsent =>
        cases h
        rw [habsent]
        exact .absent
    · next hnull =>
        cases h
        rw [hnull]
        exact .null
    · next hflag =>
        cases h
        rw [hflag]
        exact .flag required
    · cases h
  · unfold readRequired
    intro h
    cases hmember : Members.get? "required" members with
    | none =>
        rw [hmember] at h
        cases h
        rfl
    | some value =>
        rw [hmember] at h
        cases h <;> rfl

theorem ofMembers_eq_ok_iff {d : Descriptor} :
    ofMembers field members = .ok d ↔ d.Presents members := by
  have hoptions : (members.filter fun member => isOptionName member.1) =
      members.filter fun member => member.1 ≠ "type" ∧ member.1 ≠ "required" := by
    refine List.filter_congr fun member _ => ?_
    rw [Bool.eq_iff_iff]
    simp [isOptionName]
  obtain ⟨kind, required, options⟩ := d
  rw [ofMembers, hoptions, bind_eq_ok_iff]
  simp only [bind_eq_ok_iff, readKind_eq_ok_iff, readRequired_eq_ok_iff, Except.ok.injEq,
    Descriptor.mk.injEq]
  constructor
  · rintro ⟨_, hkind, _, hrequired, rfl, rfl, rfl⟩
    exact ⟨hkind, hrequired, rfl⟩
  · rintro ⟨hkind, hrequired, hmembers⟩
    exact ⟨kind, hkind, required, hrequired, rfl, rfl, hmembers.symm⟩

end Descriptor

-- The rule that a value gives: the text of a pipe rule, a list of values, or a descriptor.
inductive Spec.Presents : Spec → Json → Prop
  | pipe (source : String) : Presents (.pipe source) (.str source)
  | values (allowed : List Json) : Presents (.values allowed) (.arr allowed)
  | descriptor {d : Descriptor} {members : List (String × Json)} (h : d.Presents members) :
      Presents (.descriptor d) (.obj members)

-- The schema that a value gives: an object with a rule for each of its names, in order.
def Schema.Presents (schema : Schema) (value : Json) : Prop :=
  ∃ members, value = .obj members ∧
    List.Forall₂ (fun member field => field.1 = member.1 ∧ field.2.Presents member.2) members
      schema.fields

theorem Spec.ofJson_eq_ok_iff {field : String} {value : Json} {spec : Spec} :
    ofJson field value = .ok spec ↔ spec.Presents value := by
  constructor
  · intro h
    cases value with
    | str source =>
        cases h
        exact .pipe source
    | arr allowed =>
        cases h
        exact .values allowed
    | obj members =>
        obtain ⟨d, hd, rfl⟩ := map_eq_ok_iff.mp h
        exact .descriptor (Descriptor.ofMembers_eq_ok_iff.mp hd)
    | null => cases h
    | bool b => cases h
    | num n => cases h
  · intro h
    cases h with
    | pipe source => rfl
    | values allowed => rfl
    | descriptor h => exact map_eq_ok_iff.mpr ⟨_, Descriptor.ofMembers_eq_ok_iff.mpr h, rfl⟩

theorem Schema.ofJson_eq_ok_iff {value : Json} {schema : Schema} :
    ofJson value = .ok schema ↔ schema.Presents value := by
  cases value with
  | obj members =>
      simp only [ofJson, map_eq_ok_iff, ofMembers_eq_ok_iff, Spec.ofJson_eq_ok_iff, Presents,
        Json.obj.injEq, exists_eq_left']
      constructor
      · rintro ⟨fields, hfields, rfl⟩
        exact hfields
      · intro hfields
        exact ⟨schema.fields, hfields, rfl⟩
  | _ => simp [ofJson, Presents]

end Rulebook
