import Rulebook.Proofs.Compile.Outcome
import Rulebook.Proofs.Json.Members
import Rulebook.Rule.Schema

namespace Rulebook

open Outcome

namespace Descriptor

-- The descriptors that users put together call by call.
inductive Built : Descriptor → Prop
  | new (kind : String) : Built { kind }
  | require {d : Descriptor} (base : Built d) (required : Bool) : Built { d with required }
  | option {d : Descriptor} (base : Built d) (name : String) (value : Json) :
      Built (d.withOption name value)

theorem Built.nodup_options {d : Descriptor} (h : d.Built) : (d.options.map (·.1)).Nodup := by
  induction h with
  | new kind => exact List.nodup_nil
  | require _ _ ih => exact ih
  | option _ name value ih => exact Members.nodup_set ih name value

theorem Built.withSchema {d : Descriptor} (h : d.Built) (schema : Schema) :
    (d.withSchema schema).Built :=
  h.option "rule" schema.toJson

-- The type and the flag as the written form shows them, where an option of such a name
-- hides what the descriptor says.
def shown (d : Descriptor) : List (String × Json) := [
  ("type", (Members.get? "type" d.options).getD (.str d.kind)),
  ("required", (Members.get? "required" d.options).getD (.bool d.required))]

-- What is read back of a descriptor that was written.
def reread (field : String) (d : Descriptor) : Except SetupError Descriptor := do
  let kind ← readKind field d.shown
  let required ← readRequired field d.shown
  .ok { kind, required, options := d.options.filter fun (name, _) => isOptionName name }

-- A descriptor that the written form shows as it is.
structure Faithful (d : Descriptor) : Prop where
  named : Text.allBlank d.kind = false
  trimmed : Text.trim d.kind = d.kind
  apart : ∀ option ∈ d.options, isOptionName option.1

private def head (d : Descriptor) : List (String × Json) :=
  ("type", .str d.kind) :: if d.required then [("required", .bool true)] else []

private def written (d : Descriptor) : List (String × Json) :=
  d.options.foldl (fun members (name, value) => Members.set name value members) d.head

private theorem toJson_eq (d : Descriptor) : d.toJson = .obj d.written := by
  obtain ⟨kind, required, options⟩ := d
  cases required <;> rfl

private theorem Built.get?_written {d : Descriptor} (h : d.Built) (name : String) :
    Members.get? name d.written =
      (Members.get? name d.options).or (Members.get? name d.head) :=
  Members.get?_foldl_set h.nodup_options name d.head

private theorem Built.filter_written {d : Descriptor} (h : d.Built) :
    d.written.filter (fun (name, _) => isOptionName name) =
      d.options.filter fun (name, _) => isOptionName name := by
  have hhead : d.head.filter (fun member => isOptionName member.1) = [] := by
    unfold head
    cases d.required <;> rfl
  refine (Members.filter_foldl_set isOptionName d.options d.head).trans ?_
  rw [hhead]
  exact Members.ofList_of_nodup (h.nodup_options.sublist (List.filter_sublist.map _))

theorem ofJson_toJson {d : Descriptor} (built : d.Built) (field : String) :
    Spec.ofJson field d.toJson = (d.reread field).map .descriptor := by
  have hkind : readKind field d.written = readKind field d.shown := by
    have htype : Members.get? "type" d.written = Members.get? "type" d.shown := by
      rw [built.get?_written]
      exact Option.or_some
    rw [readKind, htype, readKind]
  have hrequired : readRequired field d.written = readRequired field d.shown := by
    rw [readRequired, built.get?_written, readRequired]
    cases hoption : Members.get? "required" d.options with
    | some value => simp [shown, hoption, Members.get?]
    | none => cases hflag : d.required <;> simp [shown, head, hoption, hflag, Members.get?]
  rw [toJson_eq, Spec.ofJson, ofMembers, hkind, hrequired, built.filter_written, reread]

private theorem shown_of_apart {d : Descriptor}
    (h : ∀ option ∈ d.options, isOptionName option.1) :
    d.shown = [("type", .str d.kind), ("required", .bool d.required)] := by
  have hnone {name : String} (hname : isOptionName name = false) :
      Members.get? name d.options = none := by
    refine Members.get?_eq_none_of_forall fun option hoption heq => ?_
    have hkept := h option hoption
    rw [heq, hname] at hkept
    exact Bool.false_ne_true hkept
  rw [shown, hnone rfl, hnone rfl, Option.getD_none, Option.getD_none]

-- These are read back as they were, and no others.
theorem reread_eq_self_iff {d : Descriptor} {field : String} :
    d.reread field = .ok d ↔ d.Faithful := by
  constructor
  · intro h
    obtain ⟨kind, hkind, h⟩ := bind_eq_ok_iff.mp h
    obtain ⟨required, -, h⟩ := bind_eq_ok_iff.mp h
    have hd := Except.ok.inj h
    have hoptions := congrArg Descriptor.options hd
    have hapart := List.filter_eq_self.mp hoptions
    rw [shown_of_apart hapart, readKind] at hkind
    obtain rfl : kind = d.kind := congrArg Descriptor.kind hd
    simp only [Members.get?, if_true] at hkind
    split at hkind
    · cases hkind
    · next hnamed => exact ⟨by simpa using hnamed, Except.ok.inj hkind, hapart⟩
  · intro h
    have hfilter := List.filter_eq_self.mpr h.apart
    rw [reread, shown_of_apart h.apart]
    simp [readKind, readRequired, Members.get?, h.named, h.trimmed, bind, Except.bind, hfilter]

end Descriptor

namespace Spec

def Built : Spec → Prop
  | descriptor d => d.Built
  | _ => True

def Faithful : Spec → Prop
  | descriptor d => d.Faithful
  | _ => True

-- A pattern is written as the descriptor that it stands for.
def restated : Spec → Spec
  | pattern source => descriptor { kind := "string", options := [("format", .str source)] }
  | spec => spec

def reread (field : String) : Spec → Except SetupError Spec
  | descriptor d => (d.reread field).map descriptor
  | spec => .ok spec.restated

theorem reread_of_faithful {spec : Spec} (h : spec.Faithful) (field : String) :
    spec.reread field = .ok spec.restated := by
  cases spec with
  | descriptor d =>
      have hself : d.reread field = .ok d := Descriptor.reread_eq_self_iff.mpr h
      rw [reread, hself]
      rfl
  | pipe source => rfl
  | values allowed => rfl
  | pattern source => rfl

theorem ofJson_toJson {spec : Spec} (built : spec.Built) (field : String) :
    ofJson field spec.toJson = spec.reread field := by
  cases spec with
  | descriptor d => exact Descriptor.ofJson_toJson built field
  | pipe source => rfl
  | values allowed => rfl
  | pattern source =>
      let d : Descriptor := { kind := "string", options := [("format", .str source)] }
      have hbuilt : d.Built := (Descriptor.Built.new "string").option "format" (.str source)
      have hnamed : Text.allBlank "string" = false := by decide
      have htrimmed : Text.trim "string" = "string" := by decide
      have hself : d.reread field = .ok d :=
        Descriptor.reread_eq_self_iff.mpr ⟨hnamed, htrimmed, List.forall_mem_singleton.mpr rfl⟩
      exact (Descriptor.ofJson_toJson hbuilt field).trans (congrArg (Except.map descriptor) hself)

end Spec

namespace Schema

-- The schemas that users put together field by field.
inductive Built : Schema → Prop
  | new : Built {}
  | field {schema : Schema} (base : Built schema) (name : String) {spec : Spec}
      (built : spec.Built) : Built (schema.insert name spec)

theorem Built.specs {schema : Schema} (h : schema.Built) :
    ∀ field ∈ schema.fields, field.2.Built := by
  induction h with
  | new => simp
  | field _ name built ih =>
      intro field hfield
      rcases Members.mem_of_mem_set hfield with rfl | hfield
      · exact built
      · exact ih field hfield

def Faithful (schema : Schema) : Prop :=
  ∀ field ∈ schema.fields, field.2.Faithful

def restated (schema : Schema) : Schema :=
  ⟨schema.fields.map fun field => (field.1, field.2.restated)⟩

-- The fields are read back one by one, up to the first that cannot be read.
def reread (schema : Schema) : Except SetupError Schema :=
  (schema.fields.mapM fun field => (Spec.reread field.1 field.2).map (field.1, ·)).map mk

theorem ofJson_toJson {schema : Schema} (built : schema.Built) :
    ofJson schema.toJson = schema.reread := by
  have hfields : ∀ fields : List (String × Spec), (∀ field ∈ fields, field.2.Built) →
      ofMembers (fields.map fun field => (field.1, field.2.toJson)) =
        fields.mapM fun field => (Spec.reread field.1 field.2).map (field.1, ·) := by
    intro fields hbuilt
    induction fields with
    | nil => rfl
    | cons field rest ih =>
        obtain ⟨hfirst, hrest⟩ := List.forall_mem_cons.mp hbuilt
        rw [List.map_cons, ofMembers, Spec.ofJson_toJson hfirst, ih hrest, List.mapM_cons]
        cases field.2.reread field.1 <;> rfl
  exact congrArg (Except.map mk) (hfields schema.fields built.specs)

theorem ofJson_toJson_of_faithful {schema : Schema} (built : schema.Built)
    (faithful : schema.Faithful) : ofJson schema.toJson = .ok schema.restated := by
  rw [ofJson_toJson built]
  refine map_eq_ok_iff.mpr ⟨_, mapM_eq_ok_iff.mpr ?_, rfl⟩
  refine List.forall₂_map_right_iff.mpr (List.forall₂_same.mpr fun field hfield => ?_)
  rw [Spec.reread_of_faithful (faithful field hfield)]
  rfl

end Schema

end Rulebook
