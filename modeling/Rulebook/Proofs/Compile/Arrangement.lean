import Rulebook.Proofs.Compile.Presence
import Rulebook.Proofs.Compile.Reread
import Rulebook.Proofs.Text.Trim
import Rulebook.Regex.Engine

namespace Rulebook

open Outcome

namespace RuleOf

-- Checks of which those that ask for a value stand before all others, and a flag that says
-- whether there are any of these.
structure Arranged (rule : Rule) : Prop where
  nonempty : rule.checks ≠ []
  required_iff : rule.required = true ↔ ∃ check ∈ rule.checks, check.1 = requiredName
  asksFirst : ∃ asking others, rule.checks = asking ++ others ∧
    (∀ check ∈ asking, check.1 = requiredName) ∧ ∀ check ∈ others, check.1 ≠ requiredName

theorem isRequired_iff {check : String × Check} :
    isRequired check = true ↔ check.1 = requiredName := by
  rw [isRequired, beq_iff_eq]

theorem arranged_ofChecks {checks : List (String × Check)} (h : checks ≠ []) :
    (ofChecks checks).Arranged := by
  refine ⟨fun hnil => ?_, ?_, checks.filter isRequired, checks.filter (!isRequired ·), rfl, ?_, ?_⟩
  · obtain ⟨check, hcheck⟩ := List.exists_mem_of_ne_nil checks h
    have hmem := mem_ofChecks.mpr hcheck
    rw [hnil] at hmem
    exact List.not_mem_nil hmem
  · simp only [mem_ofChecks, ← isRequired_iff]
    exact List.any_eq_true
  · exact fun check hcheck => isRequired_iff.mp (List.mem_filter.mp hcheck).2
  · intro check hcheck hname
    have hnot := (List.mem_filter.mp hcheck).2
    rw [isRequired_iff.mpr hname] at hnot
    exact Bool.false_ne_true hnot

-- One check stays alone. Of two the one that asks for a value comes first.
theorem checks_ofChecks_singleton (check : String × Check) :
    (ofChecks [check]).checks = [check] := by
  cases hasks : isRequired check <;> simp [ofChecks, hasks]

theorem checks_ofChecks_pair {check presence : String × Check}
    (hcheck : check.1 ≠ requiredName) (hpresence : presence.1 = requiredName) :
    (ofChecks [check, presence]).checks = [presence, check] := by
  have hasks : isRequired presence = true := isRequired_iff.mpr hpresence
  have hplain : isRequired check = false :=
    Bool.eq_false_iff.mpr fun h => hcheck (isRequired_iff.mp h)
  simp [ofChecks, hasks, hplain]

end RuleOf

theorem Spec.checkNames_ne_nil (spec : Spec) : spec.checkNames ≠ [] := by
  cases spec with
  | pipe source =>
      have hpieces : Text.pieces '|' source.toList ≠ [] := Text.pieces_ne_nil _ _
      simpa [checkNames, Token.readAll] using hpieces
  | descriptor d => exact List.cons_ne_nil _ _
  | values allowed => exact List.cons_ne_nil _ _
  | pattern source => exact List.cons_ne_nil _ _

namespace Check

-- A check that looks into its value by no rules of its own.
def IsFlat : Check → Prop
  | object (some _) => False
  | array _ _ (some _) => False
  | _ => True

end Check

namespace Entry

variable {entry : Entry} {args : Args} {rules : List (String × Rule)}

-- An object has the rules of its parts if it is built from a schema, and an array if its
-- elements have a rule.
theorem build_object_eq_ok [Engine] {fields : List (String × Rule)}
    (h : entry.build args rules = .ok (.object (some fields))) :
    entry = .builtin .object ∧ args.has "rule" = true ∧ rules = fields := by
  cases entry with
  | extension extension =>
      obtain ⟨_, _, _, _, _, hcustom⟩ | ⟨_, _, hforeign⟩ := Extension.build_cases h
      · cases hcustom
      · cases hforeign
  | builtin builtin =>
      obtain ⟨leaf, hleaf⟩ | ⟨rfl, hobject⟩ | ⟨-, min, max, harray⟩ := Builtin.build_cases h
      · cases hleaf
      · cases hrule : args.has "rule" with
        | false => simp [hrule] at hobject
        | true => simpa [hrule, eq_comm] using hobject
      · cases harray

theorem build_array_eq_ok [Engine] {min max : Option Nat} {element : Rule}
    (h : entry.build args rules = .ok (.array min max (some element))) :
    entry = .builtin .array ∧ ∃ name, rules.head? = some (name, element) := by
  cases entry with
  | extension extension =>
      obtain ⟨_, _, _, _, _, hcustom⟩ | ⟨_, _, hforeign⟩ := Extension.build_cases h
      · cases hcustom
      · cases hforeign
  | builtin builtin =>
      obtain ⟨leaf, hleaf⟩ | ⟨-, hobject⟩ | ⟨rfl, low, high, harray⟩ := Builtin.build_cases h
      · cases hleaf
      · cases hobject
      · have hhead := (Check.array.inj harray).2.2
        obtain ⟨⟨name, rule⟩, hrule, rfl⟩ := Option.map_eq_some_iff.mp hhead.symm
        exact ⟨rfl, name, hrule⟩

theorem build_isFlat [Engine] {check : Check} (h : entry.build args [] = .ok check)
    (hrule : entry = .builtin .object → args.has "rule" = false) : check.IsFlat := by
  cases check with
  | leaf | custom | foreign => trivial
  | object fields =>
      cases fields with
      | none => trivial
      | some fields =>
          obtain ⟨hobject, hhas, -⟩ := build_object_eq_ok h
          rw [hrule hobject] at hhas
          cases hhas
  | array min max element =>
      cases element with
      | none => trivial
      | some element =>
          obtain ⟨-, name, hhead⟩ := build_array_eq_ok h
          cases hhead

end Entry

namespace Registry

-- A compiled schema with the fields of its source in the order of their declaration, where
-- each name leads to what the declaration under that name compiles to.
structure Follows [Engine] (registry : Registry) (schema : Schema) (rules : RuleSet) : Prop where
  names : rules.fields.map (·.1) = schema.fields.map (·.1)
  lookup : ∀ name, Option.Rel (fun spec rule => registry.compileRule name spec = .ok rule)
    (schema.get? name) (rules.get? name)

variable {registry : Registry}

theorem follows_of_compile [Engine] {schema : Schema} {rules : RuleSet}
    (h : registry.compile schema = .ok rules) : registry.Follows schema rules := by
  have hrel := compile_eq_ok_iff.mp h
  refine ⟨names_eq hrel, fun name => ?_⟩
  simp only [Schema.get?, RuleSet.get?]
  generalize schema.fields = declared, rules.fields = fields at hrel
  induction hrel with
  | nil => exact .none
  | @cons field rule _ _ hfield _ ih =>
      obtain ⟨key, spec⟩ := field
      obtain ⟨_, compiled⟩ := rule
      obtain ⟨rfl, hrule⟩ := hfield
      simp only [Members.get?]
      split
      · next heq => exact .some (heq ▸ hrule)
      · exact ih

theorem buildToken_isFlat [Engine] {field : String} {token : Token} {check : String × Check}
    (h : registry.buildToken field token = .ok check) : check.2.IsFlat := by
  obtain ⟨entry, -, h⟩ := bind_eq_ok_iff.mp h
  obtain ⟨built, hbuilt, h⟩ := bind_eq_ok_iff.mp h
  cases h
  refine Entry.build_isFlat hbuilt ?_
  rintro rfl
  -- The text of an object becomes no options.
  have hbind (text : String) : (Entry.builtin .object).params.bind text = [] := by
    simp [Entry.params, Builtin.params, Params.bind]
  cases hraw : token.raw with
  | none => simp [Token.args, hraw, Args.has, Args.get?, Json.present?, Members.get?]
  | some text => simp [Token.args, hraw, hbind, Args.has, Args.get?, Json.present?, Members.get?]

theorem buildPlain_isFlat [Engine] {field name : String} {options : List (String × Json)}
    {check : String × Check} (h : registry.buildPlain field name options = .ok check)
    (hrule : Json.present? "rule" options = none) : check.2.IsFlat := by
  obtain ⟨entry, -, h⟩ := bind_eq_ok_iff.mp h
  obtain ⟨built, hbuilt, h⟩ := bind_eq_ok_iff.mp h
  cases h
  refine Entry.build_isFlat hbuilt fun _ => ?_
  rw [Args.has, Args.get?, hrule]
  rfl

theorem buildPresence_isFlat [Engine] {field : String} {d : Descriptor}
    {presence : List (String × Check)} (h : registry.buildPresence field d = .ok presence)
    {check : String × Check} (hmem : check ∈ presence) : check.2.IsFlat := by
  unfold buildPresence at h
  split at h
  · obtain ⟨built, hbuilt, rfl⟩ := map_eq_ok_iff.mp h
    rw [List.mem_singleton] at hmem
    exact hmem ▸ buildPlain_isFlat hbuilt rfl
  · cases h
    cases hmem

-- Only the check of a descriptor's own type may look into its value by rules, and those are
-- compiled from the options of the descriptor.
theorem compileRule_check_cases [Engine] {field : String} {spec : Spec} {rule : Rule}
    (h : registry.compileRule field spec = .ok rule) {check : String × Check}
    (hmem : check ∈ rule.checks) :
    check.2.IsFlat ∨ ∃ d entry parts rules, spec = .descriptor d ∧ check.1 = d.kind ∧
      registry.resolve d.kind = some entry ∧ entry.parts (d.args field) = .ok parts ∧
      registry.compileParts parts = .ok rules ∧
      entry.build (d.args field) rules = .ok check.2 := by
  cases spec with
  | pipe source =>
      rw [compileRule] at h
      obtain ⟨checks, hchecks, h⟩ := bind_eq_ok_iff.mp h
      cases h
      obtain ⟨token, -, htoken⟩ :=
        exists_of_mem_right (mapM_eq_ok_iff.mp hchecks) (RuleOf.mem_ofChecks.mp hmem)
      exact .inl (buildToken_isFlat htoken)
  | values allowed =>
      rw [compileRule] at h
      obtain ⟨built, hbuilt, h⟩ := bind_eq_ok_iff.mp h
      cases h
      obtain rfl := List.mem_singleton.mp (RuleOf.mem_ofChecks.mp hmem)
      exact .inl (buildPlain_isFlat hbuilt rfl)
  | pattern source =>
      rw [compileRule] at h
      obtain ⟨built, hbuilt, h⟩ := bind_eq_ok_iff.mp h
      cases h
      obtain rfl := List.mem_singleton.mp (RuleOf.mem_ofChecks.mp hmem)
      exact .inl (buildPlain_isFlat hbuilt rfl)
  | descriptor d =>
      obtain ⟨entry, parts, rules, built, presence, hentry, hparts, hrules, hbuilt, hpresence,
        rfl⟩ := compileRule_descriptor_cases h
      rcases List.mem_cons.mp (RuleOf.mem_ofChecks.mp hmem) with rfl | hextra
      · exact .inr ⟨d, entry, parts, rules, rfl, rfl, hentry, hparts, hrules, hbuilt⟩
      · exact .inl (buildPresence_isFlat hpresence hextra)

-- A descriptor becomes the check of its type, with the one for the presence of a value
-- before it if it asks for that and is not that check itself.
theorem compileRule_descriptor_checks [Engine] {field : String} {d : Descriptor} {rule : Rule}
    (h : registry.compileRule field (.descriptor d) = .ok rule) :
    ∃ rules check, registry.Builds (d.args field) rules check ∧
      (rule.checks = [(d.kind, check)] ∨
        d.required = true ∧ d.kind ≠ RuleOf.requiredName ∧
          ∃ presence, rule.checks = [(RuleOf.requiredName, presence), (d.kind, check)]) := by
  obtain ⟨entry, parts, rules, check, presence, hentry, -, -, hbuild, hpresence, rfl⟩ :=
    compileRule_descriptor_cases h
  refine ⟨rules, check, ⟨entry, hentry, hbuild⟩, ?_⟩
  obtain ⟨hasks, ⟨name, extra⟩, rfl, rfl, -⟩ | ⟨-, rfl⟩ := buildPresence_cases hpresence
  · obtain ⟨hflag, hkind⟩ := Bool.and_eq_true_iff.mp hasks
    have hkind : d.kind ≠ RuleOf.requiredName := by simpa using hkind
    exact .inr ⟨hflag, hkind, extra, RuleOf.checks_ofChecks_pair hkind rfl⟩
  · exact .inl (RuleOf.checks_ofChecks_singleton _)

-- What a compiled rule has to do with its declaration: how its checks are arranged, which
-- checks a descriptor has, and where the rules inside an object or an array come from.
structure Conforms [Engine] (registry : Registry) (field : String) (spec : Spec) (rule : Rule) :
    Prop where
  arranged : rule.Arranged
  descriptor : ∀ d, spec = .descriptor d →
    ∃ rules check, registry.Builds (d.args field) rules check ∧
      (rule.checks = [(d.kind, check)] ∨
        d.required = true ∧ d.kind ≠ RuleOf.requiredName ∧
          ∃ presence, rule.checks = [(RuleOf.requiredName, presence), (d.kind, check)])
  object : ∀ name fields, (name, Check.object (some fields)) ∈ rule.checks →
    ∃ d value source, spec = .descriptor d ∧ name = d.kind ∧
      (d.args field).get? "rule" = some value ∧ Schema.ofJson value = .ok source ∧
      registry.Follows source ⟨fields⟩
  array : ∀ name min max element, (name, Check.array min max (some element)) ∈ rule.checks →
    ∃ d value source, spec = .descriptor d ∧ name = d.kind ∧
      Builtin.elementRule ((d.args field).get? "itemType") ((d.args field).get? "rule") =
        some value ∧
      Spec.ofJson field value = .ok source ∧ registry.compileRule field source = .ok element

theorem conforms_of_compileRule [Engine] {field : String} {spec : Spec} {rule : Rule}
    (h : registry.compileRule field spec = .ok rule) : registry.Conforms field spec rule where
  arranged := by
    obtain ⟨checks, rfl, hnames⟩ := compileRule_checks h
    refine RuleOf.arranged_ofChecks fun hnil => spec.checkNames_ne_nil ?_
    rw [← hnames, hnil, List.map_nil]
  descriptor := by
    rintro d rfl
    exact compileRule_descriptor_checks h
  object := by
    intro name fields hmem
    obtain hflat | ⟨d, entry, parts, rules, hspec, hname, -, hparts, hrules, hbuild⟩ :=
      compileRule_check_cases h hmem
    · exact hflat.elim
    · obtain ⟨rfl, hhas, rfl⟩ := Entry.build_object_eq_ok hbuild
      obtain ⟨value, hvalue⟩ := Option.isSome_iff_exists.mp hhas
      simp only [Entry.parts, Builtin.parts, hvalue] at hparts
      obtain ⟨source, hsource, rfl⟩ := map_eq_ok_iff.mp hparts
      refine ⟨d, value, source, hspec, hname, hvalue, hsource, follows_of_compile ?_⟩
      rw [compile_eq_parts, hrules]
      rfl
  array := by
    intro name min max element hmem
    obtain hflat | ⟨d, entry, parts, rules, hspec, hname, -, hparts, hrules, hbuild⟩ :=
      compileRule_check_cases h hmem
    · exact hflat.elim
    · obtain ⟨rfl, key, hhead⟩ := Entry.build_array_eq_ok hbuild
      simp only [Entry.parts, Builtin.parts] at hparts
      split at hparts
      · next value hvalue =>
          obtain ⟨source, hsource, rfl⟩ := map_eq_ok_iff.mp hparts
          cases compileParts_eq_ok_iff.mp hrules with
          | cons hfirst _ =>
              cases hhead
              exact ⟨d, value, source, hspec, hname, hvalue, hsource, hfirst.2⟩
      · cases hparts
        cases hrules
        cases hhead

-- Every rule that compiles conforms to its declaration, and so do the rules inside it, down
-- to any depth. A schema that compiles keeps its fields.
theorem compileRule_conforms [Engine] (registry : Registry) :
    (∀ {field spec rule}, registry.compileRule field spec = .ok rule →
      registry.Conforms field spec rule ∧
        rule.Every fun check => ∀ part ∈ check.parts,
          ∃ name source, registry.Conforms name source part) ∧
      ∀ {schema rules}, registry.compile schema = .ok rules →
        registry.Follows schema rules ∧
          ∀ field ∈ rules.fields, ∃ spec, (field.1, spec) ∈ schema.fields ∧
            registry.compileRule field.1 spec = .ok field.2 := by
  refine ⟨fun {field spec rule} h => ⟨conforms_of_compileRule h, ?_⟩,
    fun {schema rules} h => ⟨follows_of_compile h, fun field hfield => ?_⟩⟩
  · refine (compileRule_holdsCompiled h).mono fun check hcheck part hpart => ?_
    obtain ⟨name, source, hpart⟩ := hcheck part hpart
    exact ⟨name, source, conforms_of_compileRule hpart⟩
  · obtain ⟨⟨name, spec⟩, hmem, hname, hrule⟩ :=
      exists_of_mem_right (compile_eq_ok_iff.mp h) hfield
    rw [hname]
    exact ⟨spec, hmem, hrule⟩

open scoped Regex

theorem compileRule_conforms_profile :
    (compile {} Profile.schema = .ok Profile.rules ∧
        compileRule {} "home" (.descriptor Profile.home) = .ok Profile.homeRule) ∧
      Follows {} Profile.schema Profile.rules ∧
      Conforms {} "home" (.descriptor Profile.home) Profile.homeRule ∧
      Profile.homeRule.checks = [("required", .leaf .required),
        ("object", .object (some Profile.homeRules.fields))] := by
  have hhome : compileRule {} "home" (.descriptor Profile.home) = .ok Profile.homeRule := by
    cases compile_eq_ok_iff.mp Profile.compile with
    | cons _ hrest =>
        cases hrest with
        | cons hfield _ => exact hfield.2
  obtain ⟨hrule, hschema⟩ := compileRule_conforms {}
  exact ⟨⟨Profile.compile, hhome⟩, (hschema Profile.compile).1, (hrule hhome).1, rfl⟩

end Registry

end Rulebook
