import Rulebook.Proofs.Compile.Plain
import Rulebook.Proofs.Compile.Provenance
import Rulebook.Proofs.Text.Trim
import Rulebook.Regex.Engine

namespace Rulebook

open Outcome

namespace Params

-- The options that a text can become.
def names : Params → List String
  | none => []
  | positional names => names
  | list name => [name]
  | raw name => [name]

theorem name_mem_of_mem_bind {params : Params} {text : String} {option : String × Json}
    (h : option ∈ params.bind text) : option.1 ∈ params.names := by
  simp only [bind] at h
  split at h
  · simp at h
  · cases params with
    | none => simp at h
    | positional names => exact (List.of_mem_zip (Members.mem_of_mem_ofList h)).1
    | list name =>
        obtain rfl := List.mem_singleton.mp h
        exact List.mem_singleton_self name
    | raw name =>
        obtain rfl := List.mem_singleton.mp h
        exact List.mem_singleton_self name

theorem present?_bind {params : Params} {name : String} (hname : name ∉ params.names)
    (text : String) : Json.present? name (params.bind text) = .none := by
  have hget : Members.get? name (params.bind text) = .none := by
    refine Members.get?_eq_none_of_forall fun option hoption heq => hname ?_
    rw [← heq]
    exact name_mem_of_mem_bind hoption
  rw [Json.present?, hget, Option.filter_none]

theorem bind_trim (params : Params) (text : String) :
    params.bind (Text.trim text) = params.bind text := by
  simp only [bind, Text.trim, String.toList_ofList, Text.trimChars_idempotent]

theorem bind_of_blank (params : Params) {text : String}
    (h : Text.trimChars text.toList = []) : params.bind text = [] := by
  simp only [bind, h, List.isEmpty_nil, if_true]

end Params

namespace Token

theorem read_append_cons {name : String} (htrimmed : Text.trim name = name)
    (hcolon : ':' ∉ name.toList) (raw : String) :
    read (name.toList ++ ':' :: raw.toList) =
      { name, raw := if Text.trimChars raw.toList = [] then none else some (Text.trim raw) } := by
  have hname := Text.trimChars_of_trim htrimmed
  have hblank : Text.isBlank ':' = false := by decide
  rw [read, Text.trimChars_append_cons hblank hname, Text.cut_append_cons hcolon]
  simp only [hname, Text.trimChars_trimEnd, String.ofList_toList, List.isEmpty_iff, Text.trim]

-- The options of a check in a pipe rule are those that its text becomes.
theorem bind_read (params : Params) {name : String} (htrimmed : Text.trim name = name)
    (hcolon : ':' ∉ name.toList) (raw : String) :
    ((read (name.toList ++ ':' :: raw.toList)).raw.map params.bind).getD [] = params.bind raw := by
  rw [read_append_cons htrimmed hcolon]
  by_cases hblank : Text.trimChars raw.toList = []
  · rw [if_pos hblank, params.bind_of_blank hblank]
    rfl
  · rw [if_neg hblank, Option.map_some, Option.getD_some, params.bind_trim]

theorem readAll_of_notMem {source : String} (h : '|' ∉ source.toList) :
    readAll source = [read source.toList] := by
  rw [readAll, Text.pieces_of_notMem h]
  rfl

theorem readAll_required {source : String} (h : '|' ∉ source.toList) :
    readAll ("required|" ++ source) = [⟨"required", none⟩, read source.toList] := by
  have hbar : '|' ∉ "required".toList := by decide
  have hread : read "required".toList = ⟨"required", none⟩ := by decide
  have hsource : ("required|" ++ source).toList = "required".toList ++ '|' :: source.toList := by
    rw [String.toList_append]
    rfl
  rw [readAll, hsource, Text.pieces_append_cons hbar, Text.pieces_of_notMem h]
  simp only [List.map_cons, List.map_nil, hread]

end Token

namespace Builtin

-- Only a password looks at its text once more.
theorem build_raw [Engine] {builtin : Builtin} (h : builtin ≠ .password) (args : Args)
    (raw : Option String) (parts : List (String × Rule)) :
    builtin.build { args with raw } parts = builtin.build args parts := by
  cases builtin <;> first | rfl | exact absurd rfl h

theorem parts_bind (builtin : Builtin) (rule field text : String) :
    builtin.parts { rule, field, options := builtin.params.bind text } = .ok [] := by
  apply parts_eq_nil
  · apply Params.present?_bind
    cases builtin <;> decide
  · apply Params.present?_bind
    cases builtin <;> decide

end Builtin

namespace RuleOf

theorem ofChecks_swap {name : String} (hname : name ≠ requiredName) (presence check : Check) :
    ofChecks [(requiredName, presence), (name, check)] =
      ofChecks [(name, check), (requiredName, presence)] := by
  have hcheck : isRequired (name, check) = false := by simpa [isRequired] using hname
  have hpresence : isRequired (requiredName, presence) = true := by simp [isRequired]
  simp [ofChecks, hcheck, hpresence]

end RuleOf

namespace Registry

variable {registry : Registry}

theorem Registered.entry_cases [Engine] (h : registry.Registered) {name : String} {entry : Entry}
    (hentry : registry.resolve name = some entry) :
    (registry.catalogue = true ∧ ∃ builtin, entry = .builtin builtin) ∨
      ∃ matcher template code params,
        entry = .extension (.custom matcher template code params) := by
  cases entry with
  | extension extension =>
      obtain ⟨matcher, template, code, params, rfl⟩ :=
        h.eq_custom (get?_added_of_resolve hentry)
      exact .inr ⟨matcher, template, code, params, rfl⟩
  | builtin builtin =>
      refine .inl ⟨?_, builtin, rfl⟩
      by_contra hcatalogue
      unfold resolve builtin? at hentry
      rw [if_neg hcatalogue] at hentry
      cases hadded : Members.get? name registry.added <;> simp [hadded] at hentry

theorem resolve_required (h : registry.catalogue = true) :
    ∃ entry, registry.resolve RuleOf.requiredName = some entry := by
  unfold resolve builtin?
  rw [if_pos h]
  cases Members.get? RuleOf.requiredName registry.added with
  | none => exact ⟨_, rfl⟩
  | some extension => exact ⟨_, rfl⟩

-- A pipe rule of one check is that check alone.
theorem compileRule_token [Engine] {name : String} {entry : Entry}
    (hentry : registry.resolve name = some entry) (htrimmed : Text.trim name = name)
    (hcolon : ':' ∉ name.toList) {raw : String} (hbar : '|' ∉ (name ++ ":" ++ raw).toList)
    (field : String) :
    registry.compileRule field (.pipe (name ++ ":" ++ raw)) =
      (entry.build
        { rule := name, field, options := entry.params.bind raw,
          raw := if Text.trimChars raw.toList = [] then none else some (Text.trim raw) } []).map
        fun check => .ofChecks [(name, check)] := by
  have hsource : (name ++ ":" ++ raw).toList = name.toList ++ ':' :: raw.toList := by
    simp only [String.toList_append, List.append_assoc]
    rfl
  have hread := Token.read_append_cons htrimmed hcolon raw
  have hoptions := Token.bind_read entry.params htrimmed hcolon raw
  have hargs : (Token.read (name.toList ++ ':' :: raw.toList)).args field entry =
      { rule := name, field, options := entry.params.bind raw,
        raw := if Text.trimChars raw.toList = [] then none else some (Text.trim raw) } := by
    rw [Token.args, hoptions, hread]
  have hname : (Token.read (name.toList ++ ':' :: raw.toList)).name = name := by rw [hread]
  rw [compileRule, Token.readAll_of_notMem hbar, hsource, List.mapM_cons, List.mapM_nil, buildToken,
    hname, lookup_eq_ok_iff.mpr hentry]
  simp only [bind, Except.bind, hargs]
  cases entry.build _ [] <;> rfl

theorem Registered.buildToken_read [Engine] (h : registry.Registered) {name : String}
    {entry : Entry}
    (hentry : registry.resolve name = some entry) (hpassword : entry ≠ .builtin .password)
    (htrimmed : Text.trim name = name) (hcolon : ':' ∉ name.toList) (field raw : String) :
    registry.buildToken field (.read (name.toList ++ ':' :: raw.toList)) =
      registry.buildPlain field name (entry.params.bind raw) := by
  have hname : (Token.read (name.toList ++ ':' :: raw.toList)).name = name := by
    rw [Token.read_append_cons htrimmed hcolon]
  have hlookup : registry.lookup name = .ok entry := lookup_eq_ok_iff.mpr hentry
  have hbuild (args : Args) (text : Option String) :
      entry.build { args with raw := text } [] = entry.build args [] := by
    obtain ⟨-, builtin, rfl⟩ | ⟨matcher, template, code, params, rfl⟩ := h.entry_cases hentry
    · exact builtin.build_raw (fun h => hpassword (congrArg Entry.builtin h)) args text []
    · rfl
  have hplain := hbuild { rule := name, field, options := entry.params.bind raw }
  rw [buildToken, buildPlain, hname, hlookup]
  show (entry.build (Token.args field entry _) []).map (name, ·) = Except.map (name, ·) _
  rw [Token.args, hname, Token.bind_read entry.params htrimmed hcolon, hplain]

-- Of two checks that stand together at least one can always be built, so it does not
-- matter which one comes first.
theorem Registered.build_presence_or [Engine] (h : registry.Registered) {name : String}
    {entry : Entry}
    (hentry : registry.resolve name = some entry) (field : String)
    (options : List (String × Json)) :
    (∃ check, registry.buildPlain field RuleOf.requiredName [] =
        .ok (RuleOf.requiredName, check)) ∨
      ∃ check, registry.buildPlain field name options = .ok (name, check) := by
  obtain ⟨hcatalogue, -⟩ | ⟨matcher, template, code, params, rfl⟩ := h.entry_cases hentry
  · left
    obtain ⟨presence, hpresence⟩ := resolve_required hcatalogue
    have hlookup := lookup_eq_ok_iff.mpr hpresence
    obtain ⟨-, builtin, rfl⟩ | ⟨matcher, template, code, params, rfl⟩ := h.entry_cases hpresence
    · have hnamed := named_of_resolve hpresence
      have hrequired : Builtin.named? RuleOf.requiredName = some .required := rfl
      obtain rfl := Option.some.inj (hrequired.symm.trans hnamed)
      rw [buildPlain, hlookup]
      exact ⟨_, rfl⟩
    · rw [buildPlain, hlookup]
      exact ⟨_, rfl⟩
  · right
    rw [buildPlain, lookup_eq_ok_iff.mpr hentry]
    exact ⟨_, rfl⟩

theorem exists_of_buildPlain [Engine] {field name : String} {options : List (String × Json)}
    {check : String × Check} (h : registry.buildPlain field name options = .ok check) :
    ∃ built, check = (name, built) := by
  obtain ⟨entry, -, h⟩ := bind_eq_ok_iff.mp h
  obtain ⟨built, -, h⟩ := bind_eq_ok_iff.mp h
  exact ⟨built, (Except.ok.inj h).symm⟩

theorem buildPresence_required [Engine] {name : String} (hname : name ≠ RuleOf.requiredName)
    (field : String) (options : List (String × Json)) :
    registry.buildPresence field { kind := name, required := true, options } =
      (registry.buildPlain field RuleOf.requiredName []).map ([·]) := by
  apply if_pos
  simpa [asksPresence] using hname

-- The options that a text becomes hold no rules.
theorem compileRule_bind [Engine] {name : String} {entry : Entry}
    (hentry : registry.resolve name = some entry) (required : Bool) (field raw : String) :
    registry.compileRule field
        (.descriptor { kind := name, required, options := entry.params.bind raw }) = (do
      let check ← registry.buildPlain field name (entry.params.bind raw)
      .ok (.ofChecks (check :: (← registry.buildPresence field
        { kind := name, required, options := entry.params.bind raw })))) := by
  apply compileRule_of_parts_eq_nil
  intro found hfound
  obtain rfl := Option.some.inj (hentry.symm.trans hfound)
  cases entry with
  | builtin builtin => exact builtin.parts_bind name field raw
  | extension extension => rfl

theorem Registered.compileRule_called [Engine] (h : registry.Registered) {name raw : String}
    {entry : Entry} (hentry : registry.resolve name = some entry)
    (hrequired : name ≠ RuleOf.requiredName) (hpassword : entry ≠ .builtin .password)
    (htrimmed : Text.trim name = name) (hname : '|' ∉ name.toList) (hcolon : ':' ∉ name.toList)
    (hraw : '|' ∉ raw.toList) (required : Bool) (field : String) :
    registry.compileRule field
        (.pipe ((if required then "required|" else "") ++ (name ++ ":" ++ raw))) =
      registry.compileRule field
        (.descriptor { kind := name, required, options := entry.params.bind raw }) := by
  have hsource : (name ++ ":" ++ raw).toList = name.toList ++ ':' :: raw.toList := by
    simp only [String.toList_append, List.append_assoc]
    rfl
  have hbar : '|' ∉ (name ++ ":" ++ raw).toList := by
    rw [hsource]
    simp [hname, hraw]
  have htoken := h.buildToken_read hentry hpassword htrimmed hcolon field raw
  rw [compileRule_bind hentry, compileRule]
  cases required with
  | false =>
      rw [if_neg Bool.false_ne_true, String.empty_append, Token.readAll_of_notMem hbar, hsource,
        List.mapM_cons, List.mapM_nil, htoken]
      cases registry.buildPlain field name (entry.params.bind raw) <;> rfl
  | true =>
      have hask : registry.buildToken field ⟨"required", none⟩ =
          registry.buildPlain field RuleOf.requiredName [] := rfl
      rw [if_pos rfl, Token.readAll_required hbar, hsource, List.mapM_cons, List.mapM_cons,
        List.mapM_nil, htoken, hask, buildPresence_required hrequired]
      have hone := h.build_presence_or hentry field (entry.params.bind raw)
      cases hfirst : registry.buildPlain field RuleOf.requiredName [] with
      | error error =>
          obtain ⟨check, hcheck⟩ := hone.resolve_left (by simp [hfirst])
          rw [hcheck]
          rfl
      | ok first =>
          cases hcheck : registry.buildPlain field name (entry.params.bind raw) with
          | error error => rfl
          | ok check =>
              obtain ⟨presence, rfl⟩ := exists_of_buildPlain hfirst
              obtain ⟨built, rfl⟩ := exists_of_buildPlain hcheck
              exact congrArg Except.ok (RuleOf.ofChecks_swap hrequired presence built)

-- A rule means the same however it is declared.
theorem compileRule_frontEnds [Engine] (registry : Registry) (field : String) :
    (∀ {name raw : String} {entry : Entry} (required : Bool), registry.Registered →
      registry.resolve name = some entry → name ≠ RuleOf.requiredName →
      entry ≠ .builtin .password → Text.trim name = name → '|' ∉ name.toList →
      ':' ∉ name.toList → '|' ∉ raw.toList →
        registry.compileRule field
            (.pipe ((if required then "required|" else "") ++ (name ++ ":" ++ raw))) =
          registry.compileRule field
            (.descriptor { kind := name, required, options := entry.params.bind raw })) ∧
      (∀ allowed, registry.compileRule field (.values allowed) =
        registry.compileRule field
          (.descriptor { kind := "enum", options := [("values", .arr allowed)] })) ∧
      (∀ source, registry.compileRule field (.pattern source) =
        registry.compileRule field
          (.descriptor { kind := "string", options := [("format", .str source)] })) := by
  refine ⟨?_, compileRule_values field, compileRule_pattern field⟩
  intro name raw entry required h hentry hrequired hpassword htrimmed hname hcolon hraw
  exact h.compileRule_called hentry hrequired hpassword htrimmed hname hcolon hraw required field

open scoped Regex

-- A blank around the length and one text too many make no difference.
theorem compileRule_frontEnds_numeric :
    (Registered {} ∧ resolve {} "numeric" = some (.builtin .numeric) ∧
      "numeric" ≠ RuleOf.requiredName ∧ Entry.builtin .numeric ≠ .builtin .password ∧
      Text.trim "numeric" = "numeric" ∧ '|' ∉ "numeric".toList ∧ ':' ∉ "numeric".toList ∧
      '|' ∉ " 6 ,7".toList) ∧
      compileRule {} "code"
          (.descriptor { kind := "numeric", required := true, options := [("len", .str "6")] }) =
        .ok (.ofChecks [("required", .leaf .required), ("numeric", .leaf (.numeric 6))]) := by
  have hentry : resolve {} "numeric" = some (.builtin .numeric) := rfl
  have hrequired : "numeric" ≠ RuleOf.requiredName := by decide
  have hpassword : Entry.builtin .numeric ≠ .builtin .password := by simp
  have htrimmed : Text.trim "numeric" = "numeric" := by decide
  have hname : '|' ∉ "numeric".toList := by decide
  have hcolon : ':' ∉ "numeric".toList := by decide
  have hraw : '|' ∉ " 6 ,7".toList := by decide
  have hpipe : compileRule {} "code" (.pipe "required|numeric: 6 ,7") =
      .ok (.ofChecks [("required", .leaf .required), ("numeric", .leaf (.numeric 6))]) := by
    rw [compileRule]
    rfl
  refine ⟨⟨.catalogue, hentry, hrequired, hpassword, htrimmed, hname, hcolon, hraw⟩, ?_⟩
  have hsame := (compileRule_frontEnds {} "code").1 true .catalogue hentry hrequired hpassword
    htrimmed hname hcolon hraw
  exact hsame.symm.trans hpipe

end Registry

end Rulebook
