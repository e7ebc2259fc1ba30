import Rulebook.Proofs.Compile.Arrangement
import Rulebook.Proofs.Compile.FrontEnds
import Rulebook.Proofs.Text.Cut
import Rulebook.Proofs.Text.Join
import Rulebook.Regex.Engine

namespace Rulebook

open Outcome

namespace Token

-- A token that can be told from the others of a rule: its name ends before the colon, and
-- both parts end before the bar.
structure IsPlain (token : Token) : Prop where
  name : Text.trim token.name = token.name
  colon : ':' ∉ token.name.toList
  bar : '|' ∉ token.name.toList
  raw : ∀ raw ∈ token.raw, Text.trim raw = raw ∧ raw ≠ "" ∧ '|' ∉ raw.toList

-- How a token is written: its name, and its text after a colon, with any blanks around them.
inductive Spells : Token → List Char → Prop
  | alone {name text} (hname : Text.Padded name.toList text) : Spells ⟨name, none⟩ text
  | called {name raw before after} (hname : Text.Padded name.toList before)
      (hraw : Text.Padded raw.toList after) : Spells ⟨name, some raw⟩ (before ++ ':' :: after)

variable {token : Token} {text : List Char}

theorem read_of_spells (hplain : token.IsPlain) (h : Spells token text) : read text = token := by
  have hname := Text.trimChars_of_trim hplain.name
  have hcolon : Text.isBlank ':' = false := by decide
  cases h with
  | @alone name _ hpadded =>
      have htrimmed : Text.trimChars text = name.toList :=
        (Text.trimChars_of_padded hpadded).trans hname
      rw [read, htrimmed, Text.cut_eq_none_of_notMem hplain.colon]
      simp only [String.ofList_toList]
  | @called name raw before after hbefore hafter =>
      obtain ⟨hraw, hne, -⟩ := hplain.raw raw rfl
      have hfront : Text.trimChars (Text.trimStart before) = name.toList := by
        rw [Text.trimChars_trimStart, Text.trimChars_of_padded hbefore, hname]
      have hback : Text.trimChars (Text.trimEnd after) = raw.toList := by
        rw [Text.trimChars_trimEnd, Text.trimChars_of_padded hafter, Text.trimChars_of_trim hraw]
      have hnot : ':' ∉ Text.trimStart before := fun hmem =>
        Text.notMem_of_padded hbefore hcolon hplain.colon ((List.dropWhile_subset _) hmem)
      rw [read, Text.trimChars_around hcolon, Text.cut_append_cons hnot]
      simp [hfront, hback, hne]

theorem bar_notMem_of_spells (hplain : token.IsPlain) (h : Spells token text) : '|' ∉ text := by
  have hbar : Text.isBlank '|' = false := by decide
  cases h with
  | alone hname => exact Text.notMem_of_padded hname hbar hplain.bar
  | called hname hraw =>
      simp only [List.mem_append, List.mem_cons, not_or]
      exact ⟨Text.notMem_of_padded hname hbar hplain.bar, by decide,
        Text.notMem_of_padded hraw hbar (hplain.raw _ rfl).2.2⟩

-- A rule that is written as tokens between bars is read as these tokens.
theorem readAll_of_spells {tokens : List Token} {texts : List (List Char)} {source : String}
    (hne : tokens ≠ []) (hplain : ∀ token ∈ tokens, token.IsPlain)
    (hspells : List.Forall₂ Spells tokens texts)
    (hsource : source.toList = Text.joinWith ['|'] texts) : readAll source = tokens := by
  have hall := (List.forall₂_and_left _ _).mpr ⟨hplain, hspells⟩
  have htexts : texts ≠ [] := by
    rintro rfl
    exact hne (List.forall₂_nil_right_iff.mp hspells)
  have hbar : ∀ text ∈ texts, '|' ∉ text := by
    intro text htext
    obtain ⟨token, -, hplain, hspells⟩ := exists_of_mem_right hall htext
    exact bar_notMem_of_spells hplain hspells
  rw [readAll, hsource, Text.pieces_joinWith htexts hbar]
  have hread : List.Forall₂ (fun text token => read text = token) texts tokens :=
    hall.flip.imp fun _ _ h => read_of_spells h.1 h.2
  rw [← List.forall₂_eq_eq_eq, List.forall₂_map_left_iff]
  exact hread

end Token

namespace Params

variable {items names : List String} {text : String}

theorem items_joinWith (hne : items ≠ [])
    (hitems : ∀ item ∈ items, Text.trim item = item ∧ ',' ∉ item.toList) :
    Params.items (Text.joinWith [','] (items.map String.toList)) = items.map .str := by
  have hcomma : ∀ piece ∈ items.map String.toList, ',' ∉ piece := by
    intro piece hpiece
    obtain ⟨item, hitem, rfl⟩ := List.mem_map.mp hpiece
    exact (hitems item hitem).2
  rw [Params.items, Text.pieces_joinWith (by simpa using hne) hcomma, List.map_map]
  refine List.map_congr_left fun item hitem => ?_
  show Json.str (String.ofList (Text.trimChars item.toList)) = .str item
  rw [Text.trimChars_of_trim (hitems item hitem).1, String.ofList_toList]

-- Items between commas are bound as they are, each to its name or all to one.
theorem bind_items (hitems : ∀ item ∈ items, Text.trim item = item ∧ ',' ∉ item.toList)
    (htext : text.toList = Text.joinWith [','] (items.map String.toList))
    (hblank : Text.allBlank text = false) :
    (names.Nodup → (positional names).bind text = names.zip (items.map .str)) ∧
      ∀ name, (list name).bind text = [(name, .arr (items.map .str))] := by
  have htrimmed : Text.trimChars text.toList = text.toList := by
    rw [htext]
    refine Text.trimChars_joinWith (by decide) fun piece hpiece => ?_
    obtain ⟨item, hitem, rfl⟩ := List.mem_map.mp hpiece
    exact Text.trimChars_of_trim (hitems item hitem).1
  have hne : text.toList ≠ [] := by
    intro hnil
    rw [Text.allBlank, hnil] at hblank
    cases hblank
  have hitemsNe : items ≠ [] := by
    rintro rfl
    exact hne htext
  have hread : Params.items text.toList = items.map .str := by
    rw [htext, items_joinWith hitemsNe hitems]
  have hempty : text.toList.isEmpty = false := by simpa using hne
  refine ⟨fun hnames => ?_, fun name => ?_⟩
  · have hkeys : ((names.zip (items.map Json.str)).map (·.1)).Nodup :=
      hnames.sublist (Members.map_fst_zip_sublist names _)
    simp only [bind, htrimmed, hread, hempty, Bool.false_eq_true, if_false]
    exact Members.ofList_of_nodup hkeys
  · simp only [bind, htrimmed, hread, hempty, Bool.false_eq_true, if_false]

end Params

namespace Registry

variable {registry : Registry} {field source : String} {token : Token}

-- What the entry of a token builds from the options that its text becomes.
def Gives [Engine] (registry : Registry) (field : String) (token : Token)
    (result : Except SetupError Check) : Prop :=
  ∃ entry, registry.resolve token.name = some entry ∧
    entry.build (token.args field entry) [] = result

theorem buildToken_eq_ok_iff [Engine] {check : String × Check} :
    registry.buildToken field token = .ok check ↔
      check.1 = token.name ∧ registry.Gives field token (.ok check.2) := by
  simp only [buildToken, bind_eq_ok_iff, lookup_eq_ok_iff, Except.ok.injEq]
  constructor
  · rintro ⟨entry, hentry, built, hbuilt, rfl⟩
    exact ⟨rfl, entry, hentry, hbuilt⟩
  · rintro ⟨hname, entry, hentry, hbuilt⟩
    exact ⟨entry, hentry, check.2, hbuilt, by rw [← hname]⟩

theorem exists_buildToken_iff [Engine] :
    (∃ check, registry.buildToken field token = .ok check) ↔
      ∃ check, registry.Gives field token (.ok check) := by
  simp only [buildToken_eq_ok_iff]
  exact ⟨fun ⟨check, _, hgives⟩ => ⟨check.2, hgives⟩,
    fun ⟨check, hgives⟩ => ⟨(_, check), rfl, hgives⟩⟩

theorem lookup_eq_error_iff {name : String} {error : SetupError} :
    registry.lookup name = .error error ↔
      registry.resolve name = none ∧ error = .unknownCheck name := by
  unfold lookup
  cases registry.resolve name <;> simp [eq_comm]

theorem buildToken_eq_error_iff [Engine] {error : SetupError} :
    registry.buildToken field token = .error error ↔
      (registry.resolve token.name = none ∧ error = .unknownCheck token.name) ∨
        registry.Gives field token (.error error) := by
  simp only [buildToken, bind_eq_error_iff, lookup_eq_error_iff, lookup_eq_ok_iff, reduceCtorEq,
    and_false, exists_false, or_false]
  rfl

theorem compileRule_pipe_eq_ok_iff [Engine] {rule : Rule} :
    registry.compileRule field (.pipe source) = .ok rule ↔
      ∃ checks, List.Forall₂ (fun token check => check.1 = token.name ∧
        registry.Gives field token (.ok check.2)) (Token.readAll source) checks ∧
        rule = .ofChecks checks := by
  rw [compileRule]
  simp only [bind_eq_ok_iff, mapM_eq_ok_iff, buildToken_eq_ok_iff, Except.ok.injEq]
  exact exists_congr fun _ => and_congr_right fun _ => eq_comm

-- A pipe rule fails with the error of its first token that fails.
theorem compileRule_pipe_eq_error_iff [Engine] {error : SetupError} :
    registry.compileRule field (.pipe source) = .error error ↔
      ∃ before token after, Token.readAll source = before ++ token :: after ∧
        (∀ earlier ∈ before, ∃ check, registry.Gives field earlier (.ok check)) ∧
        ((registry.resolve token.name = none ∧ error = .unknownCheck token.name) ∨
          registry.Gives field token (.error error)) := by
  simp only [compileRule, bind_eq_error_iff, mapM_eq_error_iff, exists_buildToken_iff,
    buildToken_eq_error_iff, reduceCtorEq, and_false, exists_false, or_false]

theorem Gives.unique [Engine] {result other : Except SetupError Check}
    (h : registry.Gives field token result) (hother : registry.Gives field token other) :
    result = other := by
  obtain ⟨entry, hentry, rfl⟩ := h
  obtain ⟨same, hsame, rfl⟩ := hother
  obtain rfl := Option.some.inj (hentry.symm.trans hsame)
  rfl

-- A pipe rule compiles if all its tokens can be built.
theorem exists_compileRule_pipe_iff [Engine]
    (hnames : ∀ token ∈ Token.readAll source, registry.contains token.name = true) :
    (∃ rule, registry.compileRule field (.pipe source) = .ok rule) ↔
      ∀ token ∈ Token.readAll source, ∃ check, registry.Gives field token (.ok check) := by
  constructor
  · rintro ⟨rule, hrule⟩ token htoken
    obtain ⟨checks, hchecks, -⟩ := compileRule_pipe_eq_ok_iff.mp hrule
    obtain ⟨check, -, -, hgives⟩ := exists_of_mem_right hchecks.flip htoken
    exact ⟨check.2, hgives⟩
  · intro hall
    cases hrule : registry.compileRule field (.pipe source) with
    | ok rule => exact ⟨rule, rfl⟩
    | error error =>
        obtain ⟨before, token, after, htokens, -, hfails⟩ := compileRule_pipe_eq_error_iff.mp hrule
        have hmem : token ∈ Token.readAll source := by simp [htokens]
        obtain ⟨check, hgives⟩ := hall token hmem
        rcases hfails with ⟨hnone, -⟩ | hfails
        · have hsome := hnames token hmem
          rw [contains, hnone] at hsome
          cases hsome
        · cases hgives.unique hfails

-- A pipe rule is read as the tokens that it is written from. It compiles if all of them can be
-- built, to their checks with those that ask for a value first, and else it fails as the first
-- of them that cannot. The first name without an entry fails it too. Items between commas are
-- bound as they are.
theorem compileRule_tokens [Engine] (registry : Registry) (field : String) :
    (∀ {tokens : List Token} {texts : List (List Char)} {source : String}, tokens ≠ [] →
      (∀ token ∈ tokens, token.IsPlain ∧ registry.contains token.name = true) →
      List.Forall₂ Token.Spells tokens texts → source.toList = Text.joinWith ['|'] texts →
        Token.readAll source = tokens ∧
        ((∃ rule, registry.compileRule field (.pipe source) = .ok rule) ↔
          ∀ token ∈ tokens, ∃ check, registry.Gives field token (.ok check)) ∧
        (∀ error, registry.compileRule field (.pipe source) = .error error ↔
          ∃ before token after, tokens = before ++ token :: after ∧
            (∀ earlier ∈ before, ∃ check, registry.Gives field earlier (.ok check)) ∧
            registry.Gives field token (.error error)) ∧
        ∀ rule, registry.compileRule field (.pipe source) = .ok rule →
          ∃ checks, List.Forall₂ (fun token check => check.1 = token.name ∧
              registry.Gives field token (.ok check.2)) tokens checks ∧
            rule.checks = checks.filter RuleOf.isRequired ++
              checks.filter (!RuleOf.isRequired ·)) ∧
      (∀ {source : String} {before after : List Token} {token : Token},
        Token.readAll source = before ++ token :: after →
        (∀ earlier ∈ before, ∃ check, registry.Gives field earlier (.ok check)) →
        registry.resolve token.name = none →
          registry.compileRule field (.pipe source) = .error (.unknownCheck token.name)) ∧
      ∀ {items names : List String} {text : String},
        (∀ item ∈ items, Text.trim item = item ∧ ',' ∉ item.toList) →
        text.toList = Text.joinWith [','] (items.map String.toList) →
        Text.allBlank text = false →
          (names.Nodup → (Params.positional names).bind text = names.zip (items.map .str)) ∧
          ∀ name, (Params.list name).bind text = [(name, .arr (items.map .str))] := by
  refine ⟨?_, ?_, Params.bind_items⟩
  · intro tokens texts source hne htokens hspells hsource
    have hread : Token.readAll source = tokens :=
      Token.readAll_of_spells hne (fun token htoken => (htokens token htoken).1) hspells hsource
    subst hread
    have hnames := fun token htoken => (htokens token htoken).2
    refine ⟨rfl, exists_compileRule_pipe_iff hnames, fun error => ?_, fun rule hrule => ?_⟩
    · rw [compileRule_pipe_eq_error_iff]
      refine exists₃_congr fun before token after => and_congr_right fun hsplit =>
        and_congr_right fun _ => or_iff_right ?_
      rintro ⟨hnone, -⟩
      have hsome := hnames token (by simp [hsplit])
      rw [contains, hnone] at hsome
      cases hsome
    · obtain ⟨checks, hchecks, rfl⟩ := compileRule_pipe_eq_ok_iff.mp hrule
      exact ⟨checks, hchecks, rfl⟩
  · intro source before after token hread hbefore hnone
    exact compileRule_pipe_eq_error_iff.mpr
      ⟨before, token, after, hread, hbefore, .inl ⟨hnone, rfl⟩⟩

end Registry

-- A choice between two letters, with a code of four digits that must be there.
namespace Choice

def tokens : List Token :=
  [⟨"enum", some "b, a"⟩, ⟨"required", none⟩, ⟨"captcha", some "4"⟩]

def texts : List (List Char) :=
  [" enum : b, a ".toList, "required".toList, "captcha:4 ".toList]

def source : String :=
  " enum : b, a |required|captcha:4 "

theorem spells : List.Forall₂ Token.Spells tokens texts := by
  have hblank : ∀ c ∈ [' '], Text.isBlank c = true := List.forall_mem_singleton.mpr (by decide)
  have hnone : ∀ c ∈ ([] : List Char), Text.isBlank c = true := by simp
  have hname : Text.Padded "enum".toList " enum ".toList := ⟨[' '], [' '], rfl, hblank, hblank⟩
  have hraw : Text.Padded "b, a".toList " b, a ".toList := ⟨[' '], [' '], rfl, hblank, hblank⟩
  have hcode : Text.Padded "captcha".toList "captcha".toList := ⟨[], [], rfl, hnone, hnone⟩
  have hlength : Text.Padded "4".toList "4 ".toList := ⟨[], [' '], rfl, hnone, hblank⟩
  exact .cons (.called hname hraw)
    (.cons (.alone ⟨[], [], rfl, hnone, hnone⟩) (.cons (.called hcode hlength) .nil))

theorem isPlain : ∀ token ∈ tokens,
    token.IsPlain ∧ Registry.contains {} token.name = true := by
  refine List.forall_mem_cons.mpr ⟨⟨⟨?_, ?_, ?_, ?_⟩, rfl⟩, List.forall_mem_cons.mpr
    ⟨⟨⟨?_, ?_, ?_, ?_⟩, rfl⟩, List.forall_mem_singleton.mpr ⟨⟨?_, ?_, ?_, ?_⟩, rfl⟩⟩⟩ <;> decide

theorem gives [Engine] : ∀ token ∈ tokens, ∃ check, Registry.Gives {} "code" token (.ok check) :=
  List.forall_mem_cons.mpr ⟨⟨_, _, rfl, rfl⟩, List.forall_mem_cons.mpr
    ⟨⟨_, _, rfl, rfl⟩, List.forall_mem_singleton.mpr ⟨_, _, rfl, rfl⟩⟩⟩

end Choice

open scoped Regex

theorem Registry.compileRule_tokens_choice :
    (Choice.tokens ≠ [] ∧
        (∀ token ∈ Choice.tokens, token.IsPlain ∧ contains {} token.name = true) ∧
        List.Forall₂ Token.Spells Choice.tokens Choice.texts ∧
        Choice.source.toList = Text.joinWith ['|'] Choice.texts) ∧
      (Token.readAll Choice.source = Choice.tokens ∧
        ∃ rule, compileRule {} "code" (.pipe Choice.source) = .ok rule ∧
          rule.checks.map (·.1) = ["required", "enum", "captcha"]) ∧
      compileRule {} "code" (.pipe "required|nope: 1|captcha:x") =
        .error (.unknownCheck "nope") ∧
      (Params.positional ["min", "max"]).bind "1,10,100" =
        [("min", .str "1"), ("max", .str "10")] ∧
      (Params.list "values").bind "1,10,100" =
        [("values", .arr [.str "1", .str "10", .str "100"])] := by
  obtain ⟨hwritten, hunknown, hbind⟩ := compileRule_tokens {} "code"
  have hne : Choice.tokens ≠ [] := List.cons_ne_nil _ _
  have hsource : Choice.source.toList = Text.joinWith ['|'] Choice.texts := by decide
  obtain ⟨hread, hcompiles, -, hchecks⟩ :=
    hwritten hne Choice.isPlain Choice.spells hsource
  obtain ⟨rule, hrule⟩ := hcompiles.mpr Choice.gives
  refine ⟨⟨hne, Choice.isPlain, Choice.spells, hsource⟩, ⟨hread, rule, hrule, ?_⟩, ?_, ?_⟩
  · obtain ⟨checks, hgives, hordered⟩ := hchecks rule hrule
    obtain - | @⟨-, ⟨_, enum⟩, -, -, ⟨rfl, -⟩, - | @⟨-, ⟨_, required⟩, -, -, ⟨rfl, -⟩,
      - | @⟨-, ⟨_, captcha⟩, -, -, ⟨rfl, -⟩, - | -⟩⟩⟩ := hgives
    rw [hordered]
    rfl
  · have hread : Token.readAll "required|nope: 1|captcha:x" =
        [⟨"required", none⟩] ++ ⟨"nope", some "1"⟩ :: [⟨"captcha", some "x"⟩] := by decide
    exact hunknown hread (List.forall_mem_singleton.mpr ⟨_, _, rfl, rfl⟩) rfl
  · have hitems : ∀ item ∈ ["1", "10", "100"], Text.trim item = item ∧ ',' ∉ item.toList := by
      decide
    have htext : "1,10,100".toList =
        Text.joinWith [','] (["1", "10", "100"].map String.toList) := by decide
    obtain ⟨hpositional, hlist⟩ := hbind hitems htext (by decide)
    exact ⟨hpositional (by decide), hlist "values"⟩

end Rulebook
