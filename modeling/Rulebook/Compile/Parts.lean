import Rulebook.Registry.Basic
import Rulebook.Rule.Schema

namespace Rulebook

namespace Builtin

-- A rule is a descriptor if it has a type, and else the schema of an object.
def isDescriptor (rule : Json) : Bool :=
  (rule.get? "type").isSome

def objectRule (schema : Option Json) : Json :=
  .obj (("type", .str "object") :: (schema.map ("rule", ·)).toList)

-- The rule of the elements of an array. The type of the elements is a rule of its
-- own, unless it asks for objects, whose schema is the other option, or the other
-- option is a descriptor.
def elementRule (itemType rule : Option Json) : Option Json :=
  match itemType, rule with
  | some (.str "object"), rule => some (objectRule rule)
  | some itemType, some rule => some (if isDescriptor rule then rule else itemType)
  | some itemType, none => some itemType
  | none, some rule => some (if isDescriptor rule then rule else objectRule (some rule))
  | none, none => none

-- It is one of the two options, or it puts the other one into the rule of an object.
theorem elementRule_cases {itemType rule : Option Json} {element : Json}
    (h : elementRule itemType rule = some element) :
    itemType = some element ∨ rule = some element ∨ element = objectRule rule := by
  unfold elementRule at h
  split at h
  · exact .inr (.inr (Option.some.inj h).symm)
  · split at h
    · exact .inr (.inl h)
    · exact .inl h
  · exact .inl h
  · split at h
    · exact .inr (.inl h)
    · exact .inr (.inr (Option.some.inj h).symm)
  · cases h

-- The rules that are compiled as parts of a check.
def parts (args : Args) : Builtin → Except SetupError (List (String × Spec))
  | object =>
      match args.get? "rule" with
      | some rule => (Schema.ofJson rule).map Schema.fields
      | none => .ok []
  | array =>
      match elementRule (args.get? "itemType") (args.get? "rule") with
      | some element => (Spec.ofJson args.field element).map fun spec => [(args.field, spec)]
      | none => .ok []
  | _ => .ok []

end Builtin

def Entry.parts (args : Args) : Entry → Except SetupError (List (String × Spec))
  | builtin check => check.parts args
  | _ => .ok []

end Rulebook
