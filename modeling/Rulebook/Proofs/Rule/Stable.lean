import Rulebook.Proofs.Compile.Distinct
import Rulebook.Proofs.Rule.Reread
import Rulebook.Proofs.Text.Trim

namespace Rulebook

open Outcome

namespace Descriptor

-- A descriptor that repeats no option can be put together by one call for each option.
theorem built_of_nodup {d : Descriptor} (h : (d.options.map (·.1)).Nodup) : d.Built := by
  obtain ⟨kind, required, options⟩ := d
  induction options using List.reverseRecOn with
  | nil => exact (Built.new kind).require required
  | append_singleton options option ih =>
      obtain ⟨hrest, hset⟩ := Members.set_last h
      rw [← hset]
      exact (ih hrest).option option.1 option.2

variable {field : String} {members : List (String × Json)} {d : Descriptor}

theorem ofMembers_built (hnames : (members.map (·.1)).Nodup)
    (h : ofMembers field members = .ok d) : d.Built := by
  obtain ⟨kind, -, h⟩ := bind_eq_ok_iff.mp h
  obtain ⟨required, -, h⟩ := bind_eq_ok_iff.mp h
  cases h
  exact built_of_nodup (hnames.sublist (List.filter_sublist.map _))

theorem readKind_eq_ok {kind : String} (h : readKind field members = .ok kind) :
    Text.allBlank kind = false ∧ Text.trim kind = kind := by
  unfold readKind at h
  split at h
  · next source _ =>
      split at h
      · cases h
      · next hblank =>
          cases h
          rw [Text.allBlank_trim]
          exact ⟨Bool.eq_false_iff.mpr hblank, Text.trim_idempotent source⟩
  · cases h
  · cases h
  · cases h

-- Reading trims the type and sorts out its name and that of the flag, so nothing is left
-- for writing to hide.
theorem ofMembers_faithful (h : ofMembers field members = .ok d) : d.Faithful := by
  obtain ⟨kind, hkind, h⟩ := bind_eq_ok_iff.mp h
  obtain ⟨required, -, h⟩ := bind_eq_ok_iff.mp h
  cases h
  obtain ⟨hnamed, htrimmed⟩ := readKind_eq_ok hkind
  exact ⟨hnamed, htrimmed, fun option hoption => (List.mem_filter.mp hoption).2⟩

end Descriptor

namespace Spec

variable {field : String} {value : Json} {spec : Spec}

theorem ofJson_built (hvalue : value.Distinct) (h : ofJson field value = .ok spec) :
    spec.Built := by
  cases hvalue with
  | obj hnames hvalues =>
      obtain ⟨d, hd, rfl⟩ := map_eq_ok_iff.mp h
      exact Descriptor.ofMembers_built hnames hd
  | str source =>
      cases h
      trivial
  | arr hitems =>
      cases h
      trivial
  | null => cases h
  | bool b => cases h
  | num n => cases h

-- What is read is never a pattern, since no JSON stands for one.
theorem ofJson_faithful (h : ofJson field value = .ok spec) :
    spec.Faithful ∧ spec.restated = spec := by
  cases value with
  | obj members =>
      obtain ⟨d, hd, rfl⟩ := map_eq_ok_iff.mp h
      exact ⟨Descriptor.ofMembers_faithful hd, rfl⟩
  | str source =>
      cases h
      exact ⟨trivial, rfl⟩
  | arr allowed =>
      cases h
      exact ⟨trivial, rfl⟩
  | null => cases h
  | bool b => cases h
  | num n => cases h

end Spec

namespace Schema

theorem built_of_nodup {schema : Schema} (hnames : (schema.fields.map (·.1)).Nodup)
    (hspecs : ∀ field ∈ schema.fields, field.2.Built) : schema.Built := by
  obtain ⟨fields⟩ := schema
  induction fields using List.reverseRecOn with
  | nil => exact .new
  | append_singleton fields field ih =>
      obtain ⟨hrest, hset⟩ := Members.set_last hnames
      obtain ⟨hothers, hlast⟩ := List.forall_mem_append.mp hspecs
      have hbase := ih hrest hothers
      rw [← hset]
      exact hbase.field field.1 (hlast field (List.mem_singleton_self field))

-- A schema that was read is read back as it is: the same fields in the same order, each in
-- the same form with the same type, flag and options.
theorem ofJson_toJson_of_read {value : Json} (hvalue : value.Distinct) {schema : Schema}
    (h : ofJson value = .ok schema) : ofJson schema.toJson = .ok schema := by
  cases hvalue with
  | obj hnames hvalues =>
      obtain ⟨fields, hfields, rfl⟩ := map_eq_ok_iff.mp h
      have hrel := ofMembers_eq_ok_iff.mp hfields
      have hread {field : String × Spec} (hfield : field ∈ fields) :
          field.2.Built ∧ field.2.Faithful ∧ field.2.restated = field.2 := by
        obtain ⟨member, hmember, -, hspec⟩ := exists_of_mem_right hrel hfield
        exact ⟨Spec.ofJson_built (hvalues member hmember) hspec, Spec.ofJson_faithful hspec⟩
      have hbuilt : Built ⟨fields⟩ := by
        refine built_of_nodup ?_ fun field hfield => (hread hfield).1
        rwa [names_eq hrel]
      have hfaithful : Faithful ⟨fields⟩ := fun field hfield => (hread hfield).2.1
      have hrestated : restated ⟨fields⟩ = ⟨fields⟩ := by
        refine congrArg mk ((List.map_congr_left fun field hfield => ?_).trans (List.map_id fields))
        rw [(hread hfield).2.2]
        rfl
      rw [ofJson_toJson_of_faithful hbuilt hfaithful, hrestated]
  | null => cases h
  | bool b => cases h
  | num n => cases h
  | str s => cases h
  | arr hitems => cases h

end Schema

-- A blank around a type, a flag that is null, and options before the type.
namespace Membership

def home : Json :=
  .obj [("required", .bool true), ("rule", .obj [("town", .str "alpha")]), ("type", .str "object")]

def rules : Json :=
  .obj [("age", .obj [("max", .str "99"), ("type", .str " int "), ("required", .null)]),
    ("home", home), ("level", .arr [.str "gold", .str "silver"])]

def homeRule : Descriptor :=
  { kind := "object"
    required := true
    options := [("rule", .obj [("town", .str "alpha")])] }

def schema : Schema :=
  ⟨[("age", .descriptor { kind := "int", options := [("max", .str "99")] }),
    ("home", .descriptor homeRule), ("level", .values [.str "gold", .str "silver"])]⟩

theorem rules_distinct : rules.Distinct := by
  have hobj {members : List (String × Json)} (hnames : (members.map (·.1)).Nodup)
      (hvalues : ∀ value ∈ members.map (·.2), value.Distinct) : (Json.obj members).Distinct :=
    .obj hnames fun member hmember => hvalues _ (List.mem_map_of_mem hmember)
  have htown : Json.Distinct (.obj [("town", .str "alpha")]) :=
    hobj (by decide) (by simpa using .str "alpha")
  have hhome : home.Distinct :=
    hobj (by decide) (by simpa using ⟨.bool true, htown, .str "object"⟩)
  have hage : Json.Distinct
      (.obj [("max", .str "99"), ("type", .str " int "), ("required", .null)]) :=
    hobj (by decide) (by simpa using ⟨.str "99", .str " int ", .null⟩)
  have hlevel : Json.Distinct (.arr [.str "gold", .str "silver"]) :=
    .arr (by simpa using ⟨.str "gold", .str "silver"⟩)
  exact hobj (by decide) (by simpa using ⟨hage, hhome, hlevel⟩)

end Membership

theorem Schema.ofJson_toJson_of_read_membership :
    (Membership.rules.Distinct ∧ Schema.ofJson Membership.rules = .ok Membership.schema) ∧
      Schema.ofJson Membership.schema.toJson = .ok Membership.schema := by
  have hread : Schema.ofJson Membership.rules = .ok Membership.schema := rfl
  exact ⟨⟨Membership.rules_distinct, hread⟩,
    Schema.ofJson_toJson_of_read Membership.rules_distinct hread⟩

end Rulebook
