import Rulebook.Proofs.Compile.Induction

namespace Rulebook

-- Only two options hold rules of their own.
theorem Builtin.parts_eq_nil {args : Args} (hrule : args.get? "rule" = none)
    (hitem : args.get? "itemType" = none) (builtin : Builtin) : builtin.parts args = .ok [] := by
  cases builtin with
  | object => rw [parts, hrule]
  | array => rw [parts, hrule, hitem, elementRule]
  | _ => rfl

theorem Entry.parts_eq_nil {args : Args} (hrule : args.get? "rule" = none)
    (hitem : args.get? "itemType" = none) (entry : Entry) : entry.parts args = .ok [] := by
  cases entry with
  | builtin builtin => exact builtin.parts_eq_nil hrule hitem
  | extension extension => rfl

namespace Registry

variable {registry : Registry}

-- A descriptor without rules of its own is its check, and the one for the presence of a
-- value if it asks for that.
theorem compileRule_of_parts_eq_nil [Engine] {d : Descriptor} {field : String}
    (hparts : ∀ entry, registry.resolve d.kind = some entry →
      entry.parts (d.args field) = .ok []) :
    registry.compileRule field (.descriptor d) = (do
      let check ← registry.buildPlain field d.kind d.options
      .ok (.ofChecks (check :: (← registry.buildPresence field d)))) := by
  have hargs : ({ rule := d.kind, field, options := d.options } : Args) = d.args field := rfl
  rw [compileRule_descriptor, buildPlain, hargs]
  cases hentry : registry.lookup d.kind with
  | error error => rfl
  | ok entry =>
      have hnil := hparts entry (lookup_eq_ok_iff.mp hentry)
      simp only [bind, Except.bind, hnil, compileParts, List.mapM_nil, pure, Except.pure]
      cases entry.build (d.args field) [] <;> rfl

theorem compileRule_plain [Engine] {d : Descriptor} (hrule : Json.present? "rule" d.options = none)
    (hitem : Json.present? "itemType" d.options = none) (field : String) :
    registry.compileRule field (.descriptor d) = (do
      let check ← registry.buildPlain field d.kind d.options
      .ok (.ofChecks (check :: (← registry.buildPresence field d)))) := by
  apply compileRule_of_parts_eq_nil
  intro entry _
  apply Entry.parts_eq_nil
  · exact hrule
  · exact hitem

-- One that asks for nothing else is its check alone.
theorem compileRule_alone [Engine] {d : Descriptor} {entry : Entry}
    (hentry : registry.resolve d.kind = some entry)
    (hrule : Json.present? "rule" d.options = none)
    (hitem : Json.present? "itemType" d.options = none) (hasks : asksPresence d = false)
    (field : String) :
    registry.compileRule field (.descriptor d) =
      (entry.build (d.args field) []).map fun check => .ofChecks [(d.kind, check)] := by
  have hpresence : registry.buildPresence field d = .ok [] := by
    rw [buildPresence, hasks]
    rfl
  have hargs : ({ rule := d.kind, field, options := d.options } : Args) = d.args field := rfl
  rw [compileRule_plain hrule hitem, buildPlain, lookup_eq_ok_iff.mpr hentry, hpresence, hargs]
  simp only [bind, Except.bind]
  cases entry.build (d.args field) [] <;> rfl

-- Values stand for a descriptor.
theorem compileRule_values [Engine] (field : String) (allowed : List Json) :
    registry.compileRule field (.values allowed) =
      registry.compileRule field
        (.descriptor { kind := "enum", options := [("values", .arr allowed)] }) := by
  rw [compileRule_plain rfl rfl, compileRule]
  cases registry.buildPlain field "enum" [("values", .arr allowed)] <;> rfl

theorem compileRule_pattern [Engine] (field source : String) :
    registry.compileRule field (.pattern source) =
      registry.compileRule field
        (.descriptor { kind := "string", options := [("format", .str source)] }) := by
  rw [compileRule_plain rfl rfl, compileRule]
  cases registry.buildPlain field "string" [("format", .str source)] <;> rfl

end Registry

end Rulebook
