import Rulebook.Proofs.Compile.FrontEnds
import Rulebook.Proofs.Compile.Options
import Rulebook.Proofs.Regex.Verbatim
import Rulebook.Proofs.Text.Digits
import Rulebook.Regex.Engine

namespace Rulebook

open Outcome

namespace Json

-- Digits whose number is not too great for a count.
def DenotesCount (s : String) : Prop :=
  Text.natOfDigits s.toList ≤ maxCount

instance (s : String) : Decidable (DenotesCount s) :=
  inferInstanceAs (Decidable (_ ≤ _))

theorem countOfText?_of_isDigitRun {cs : List Char} (h : Text.isDigitRun cs = true) :
    countOfText? cs =
      if Text.natOfDigits cs ≤ maxCount then some (Text.natOfDigits cs) else none := by
  have hplus : ∀ rest, cs ≠ '+' :: rest := by
    rintro rest rfl
    exact Text.notMem_of_isDigitRun h (by decide) List.mem_cons_self
  rw [countOfText?, Text.trimChars_of_isDigitRun h]
  split
  · next rest => exact absurd rfl (hplus rest)
  · simp [h]

end Json

namespace Args

variable {args : Args} {name s : String}

theorem count_of_denotesCount (hs : args.get? name = some (.str s))
    (h : Text.isDigitRun s.toList = true) (hcount : Json.DenotesCount s) :
    args.count name = .ok (some (Text.natOfDigits s.toList)) := by
  rw [count, hs]
  simp only [Json.count?, Json.countOfText?_of_isDigitRun h]
  rw [Json.DenotesCount] at hcount
  rw [if_pos hcount]

theorem count_of_not_denotesCount (hs : args.get? name = some (.str s))
    (h : Text.isDigitRun s.toList = true) (hcount : ¬Json.DenotesCount s) :
    args.count name = args.refuse name (.notCount s) := by
  rw [count, hs]
  simp only [Json.count?, Json.countOfText?_of_isDigitRun h]
  rw [Json.DenotesCount] at hcount
  rw [if_neg hcount]
  rfl

end Args

namespace Password

-- The options and the text after the colon of a password with two bounds.
def bounded (a b : String) : Descriptor :=
  { kind := "password", options := [("min", .str a), ("max", .str b)] }

def boundsText (a b : String) : String :=
  a ++ "," ++ b

-- The rule that only asks for a password.
def ruleOf (charset : Charset) : Rule :=
  .ofChecks [("password", .leaf (.password ⟨charset, none⟩))]

variable {a b : String}

theorem toList_boundsText (a b : String) :
    (boundsText a b).toList = a.toList ++ ',' :: b.toList := by
  simp only [boundsText, String.toList_append, List.append_assoc]
  rfl

section Digits

variable (ha : Text.isDigitRun a.toList = true) (hb : Text.isDigitRun b.toList = true)

include ha hb

theorem isDigit_or_eq_of_mem_boundsText {c : Char} (hc : c ∈ (boundsText a b).toList) :
    c.isDigit = true ∨ c = ',' := by
  rw [toList_boundsText, List.mem_append, List.mem_cons] at hc
  obtain hc | rfl | hc := hc
  · exact .inl ((Text.isDigitRun_iff.mp ha).2 c hc)
  · exact .inr rfl
  · exact .inl ((Text.isDigitRun_iff.mp hb).2 c hc)

theorem notMem_boundsText {c : Char} (hdigit : c.isDigit = false) (hcomma : c ≠ ',') :
    c ∉ (boundsText a b).toList := by
  intro hc
  obtain hc | rfl := isDigit_or_eq_of_mem_boundsText ha hb hc
  · cases hdigit.symm.trans hc
  · exact hcomma rfl

theorem trimChars_boundsText :
    Text.trimChars (boundsText a b).toList = (boundsText a b).toList := by
  apply Text.trimChars_of_forall_not_isBlank
  intro c hc
  obtain hc | rfl := isDigit_or_eq_of_mem_boundsText ha hb hc
  · exact Text.isBlank_of_isDigit hc
  · decide

theorem pieces_boundsText :
    Text.pieces ',' (boundsText a b).toList = [a.toList, b.toList] := by
  rw [toList_boundsText, Text.pieces_append_cons (Text.notMem_of_isDigitRun ha (by decide)),
    Text.pieces_of_notMem (Text.notMem_of_isDigitRun hb (by decide))]

theorem isCountList_boundsText_iff :
    Builtin.isCountList (boundsText a b) = true ↔ Json.DenotesCount a ∧ Json.DenotesCount b := by
  rw [Builtin.isCountList, pieces_boundsText ha hb]
  simp only [List.all_cons, List.all_nil, Bool.and_true, Json.countOfText?_of_isDigitRun ha,
    Json.countOfText?_of_isDigitRun hb, Json.DenotesCount, Bool.and_eq_true]
  split <;> split <;> simp_all

theorem bind_boundsText :
    Builtin.password.params.bind (boundsText a b) = (bounded a b).options := by
  have hne : (boundsText a b).toList.isEmpty = false := by
    rw [toList_boundsText]
    simp
  have hitems : Params.items (boundsText a b).toList = [.str a, .str b] := by
    rw [Params.items, pieces_boundsText ha hb]
    simp only [List.map_cons, List.map_nil, Text.trimChars_of_isDigitRun ha,
      Text.trimChars_of_isDigitRun hb, Json.text, String.ofList_toList]
  rw [Builtin.params, Params.bind, trimChars_boundsText ha hb, hne, hitems]
  rfl

end Digits

end Password

namespace Builtin

variable {args : Args}

-- Where no format is given, a text after the colon that lists counts makes no difference.
theorem passwordFormat_of_isCountList [Engine] {raw : String} (h : isCountList raw = true)
    (hraw : args.raw = none) :
    passwordFormat { args with raw := some raw } = passwordFormat args := by
  have hpattern : Args.pattern { args with raw := some raw } "format" = args.pattern "format" := rfl
  have hfilter : (some raw).filter (!isCountList ·) = none := by simp [h]
  rw [passwordFormat, passwordFormat, hpattern, hraw, hfilter]
  rfl

theorem charset_of_isCountList [Engine] {raw : String} (h : isCountList raw = true)
    (hraw : args.raw = none) : charset { args with raw := some raw } = charset args := by
  rw [charset, charset, passwordFormat_of_isCountList h hraw]
  rfl

-- Any other text is read as a format.
theorem passwordFormat_of_not_isCountList [Engine] {raw : String} (h : isCountList raw = false)
    (hraw : args.raw = some raw) (hformat : args.get? "format" = none) :
    passwordFormat args = match Pattern.parse raw with
      | .ok format => .ok (some format)
      | .error error => args.refuse "format" (.pattern error) := by
  have hpattern : args.pattern "format" = .ok none := by
    simp [Args.pattern, Args.text, hformat, bind, Except.bind]
  have hfilter : (some raw).filter (!isCountList ·) = some raw := by simp [h]
  cases hparse : Pattern.parse raw <;>
    simp only [passwordFormat, hpattern, hraw, hfilter, hparse, bind, Except.bind]

theorem charset_of_counts [Engine] {min max : Nat} (hformat : passwordFormat args = .ok none)
    (hmin : args.count "min" = .ok (some min)) (hmax : args.count "max" = .ok (some max)) :
    charset args = if 1 ≤ min ∧ min ≤ max then .ok (.standard min max)
      else .error (.badBounds args.rule min max) := by
  rw [charset, hformat]
  simp only [bind, Except.bind, hmin, hmax, Option.getD_some]
  by_cases hbounds : 1 ≤ min ∧ min ≤ max
  · rw [if_pos hbounds, if_neg (by omega)]
  · rw [if_neg hbounds, if_pos (by omega)]

-- A password that is not compared is its characters alone.
theorem map_build_password [Engine] (hcompare : args.get? "compare" = none) :
    (password.build args []).map (fun check => RuleOf.ofChecks [("password", check)]) =
      (charset args).map Password.ruleOf := by
  have htext : args.text "compare" = .ok none := by rw [Args.text, hcompare]
  rw [build, passwordRules, htext]
  cases charset args <;> rfl

end Builtin

namespace Password

variable {a b : String}

theorem get?_min (a b field : String) : ((bounded a b).args field).get? "min" = some (.str a) :=
  rfl

theorem get?_max (a b field : String) : ((bounded a b).args field).get? "max" = some (.str b) :=
  rfl

theorem passwordFormat_bounded [Engine] (a b field : String) :
    Builtin.passwordFormat ((bounded a b).args field) = .ok none :=
  rfl

theorem charset_bounded [Engine] (ha : Text.isDigitRun a.toList = true)
    (hb : Text.isDigitRun b.toList = true) (hmin : Json.DenotesCount a)
    (hmax : Json.DenotesCount b) (field : String) :
    Builtin.charset ((bounded a b).args field) =
      if 1 ≤ Text.natOfDigits a.toList ∧
          Text.natOfDigits a.toList ≤ Text.natOfDigits b.toList then
        .ok (.standard (Text.natOfDigits a.toList) (Text.natOfDigits b.toList))
      else
        .error (.badBounds "password" (Text.natOfDigits a.toList) (Text.natOfDigits b.toList)) :=
  Builtin.charset_of_counts (passwordFormat_bounded a b field)
    (Args.count_of_denotesCount (get?_min a b field) ha hmin)
    (Args.count_of_denotesCount (get?_max a b field) hb hmax)

theorem charset_bounded_min [Engine] (ha : Text.isDigitRun a.toList = true)
    (hmin : ¬Json.DenotesCount a) (b field : String) :
    Builtin.charset ((bounded a b).args field) =
      .error (.badOption "password" "min" (.notCount a)) := by
  have hcount := Args.count_of_not_denotesCount (get?_min a b field) ha hmin
  rw [Builtin.charset, passwordFormat_bounded]
  simp only [bind, Except.bind, hcount]
  rfl

theorem charset_bounded_max [Engine] (ha : Text.isDigitRun a.toList = true)
    (hb : Text.isDigitRun b.toList = true) (hmin : Json.DenotesCount a)
    (hmax : ¬Json.DenotesCount b) (field : String) :
    Builtin.charset ((bounded a b).args field) =
      .error (.badOption "password" "max" (.notCount b)) := by
  have hfirst := Args.count_of_denotesCount (get?_min a b field) ha hmin
  have hsecond := Args.count_of_not_denotesCount (get?_max a b field) hb hmax
  rw [Builtin.charset, passwordFormat_bounded]
  simp only [bind, Except.bind, hfirst, hsecond]
  rfl

-- What stands after the colon matches every text it occurs in, if it is not too long.
theorem parse_boundsText [Engine] [Engine.Verbatim] (ha : Text.isDigitRun a.toList = true)
    (hb : Text.isDigitRun b.toList = true) :
    (Pattern.parse (boundsText a b) = .error .malformed ∧ 3000 < (boundsText a b).length) ∨
      ∃ format, Pattern.parse (boundsText a b) = .ok format ∧
        ∀ text : String, format.isMatch text = true ↔
          (boundsText a b).toList <:+: text.toList := by
  have hplain : ∀ c ∈ (boundsText a b).toList, Regex.isSpecial c = false := by
    intro c hc
    obtain hdigit | rfl := isDigit_or_eq_of_mem_boundsText ha hb hc
    · exact Regex.isSpecial_of_isDigit hdigit
    · decide
  have hslash : '/' ∉ (boundsText a b).toList := notMem_boundsText ha hb (by decide) (by decide)
  have hbare := Pattern.splitLiteral_of_notMem hslash
  obtain ⟨accepts, haccepts, hparse⟩ | ⟨hnone, hparse⟩ := Pattern.parse_cases hbare
  · exact .inr ⟨_, hparse, fun text => Engine.Verbatim.accepts_iff hplain haccepts text.toList⟩
  · refine .inl ⟨hparse, ?_⟩
    by_contra hlength
    have hread := Engine.Verbatim.isSome_compile? hplain (Nat.le_of_not_lt hlength)
    rw [hnone] at hread
    cases hread

-- What is built from the text after the colon. The options are those of the descriptor.
def textArgs (a b field : String) : Args :=
  { (bounded a b).args field with raw := some (boundsText a b) }

theorem charset_textArgs [Engine] [Engine.Verbatim] (ha : Text.isDigitRun a.toList = true)
    (hb : Text.isDigitRun b.toList = true)
    (hcounts : ¬(Json.DenotesCount a ∧ Json.DenotesCount b)) (field : String) :
    (Builtin.charset (textArgs a b field) =
        .error (.badOption "password" "format" (.pattern .malformed)) ∧
      3000 < (boundsText a b).length) ∨
    ∃ format, Builtin.charset (textArgs a b field) = .ok (.custom format) ∧
      ∀ text : String, format.isMatch text = true ↔ (boundsText a b).toList <:+: text.toList := by
  have hother : Builtin.isCountList (boundsText a b) = false :=
    Bool.eq_false_iff.mpr fun h => hcounts ((isCountList_boundsText_iff ha hb).mp h)
  have hraw : (textArgs a b field).raw = some (boundsText a b) := rfl
  have hformat := Builtin.passwordFormat_of_not_isCountList hother hraw rfl
  obtain ⟨hparse, hlength⟩ | ⟨format, hparse, hmatch⟩ := parse_boundsText ha hb
  · refine .inl ⟨?_, hlength⟩
    rw [hparse] at hformat
    rw [Builtin.charset, hformat]
    rfl
  · refine .inr ⟨format, ?_, hmatch⟩
    rw [hparse] at hformat
    exact Builtin.charset_of_format hformat

end Password

namespace Registry

variable {registry : Registry} {a b : String}

theorem compileRule_bounded [Engine]
    (hentry : registry.resolve "password" = some (.builtin .password))
    (a b field : String) :
    registry.compileRule field (.descriptor (Password.bounded a b)) =
      (Builtin.charset ((Password.bounded a b).args field)).map Password.ruleOf := by
  rw [compileRule_alone hentry rfl rfl rfl]
  exact Builtin.map_build_password rfl

theorem compileRule_boundsText [Engine]
    (hentry : registry.resolve "password" = some (.builtin .password))
    (ha : Text.isDigitRun a.toList = true) (hb : Text.isDigitRun b.toList = true)
    (field : String) :
    registry.compileRule field (.pipe ("password" ++ ":" ++ Password.boundsText a b)) =
      (Builtin.charset (Password.textArgs a b field)).map Password.ruleOf := by
  have hbar : '|' ∉ ("password" ++ ":" ++ Password.boundsText a b).toList := by
    rw [String.toList_append, List.mem_append, not_or]
    exact ⟨by decide, Password.notMem_boundsText ha hb (by decide) (by decide)⟩
  have hraw : (if Text.trimChars (Password.boundsText a b).toList = [] then none
      else some (Text.trim (Password.boundsText a b))) = some (Password.boundsText a b) := by
    rw [Text.trim, Password.trimChars_boundsText ha hb, String.ofList_toList, if_neg]
    rw [Password.toList_boundsText]
    simp
  rw [compileRule_token hentry (by decide) (by decide) hbar, hraw, Entry.params,
    Password.bind_boundsText ha hb]
  exact Builtin.map_build_password rfl

-- Two runs of digits are bounds, whether they are options or stand after the colon, as long as
-- both are counts. If one is too great for that, the options are refused, and what stands after
-- the colon is a format that matches every text it occurs in.
theorem compileRule_digits [Engine] [Engine.Verbatim]
    (hentry : registry.resolve "password" = some (.builtin .password))
    (ha : Text.isDigitRun a.toList = true) (hb : Text.isDigitRun b.toList = true)
    (field : String) :
    (Json.DenotesCount a → Json.DenotesCount b →
      registry.compileRule field (.pipe ("password" ++ ":" ++ Password.boundsText a b)) =
          registry.compileRule field (.descriptor (Password.bounded a b)) ∧
        registry.compileRule field (.descriptor (Password.bounded a b)) =
          if 1 ≤ Text.natOfDigits a.toList ∧
              Text.natOfDigits a.toList ≤ Text.natOfDigits b.toList then
            .ok (Password.ruleOf
              (.standard (Text.natOfDigits a.toList) (Text.natOfDigits b.toList)))
          else
            .error (.badBounds "password" (Text.natOfDigits a.toList)
              (Text.natOfDigits b.toList))) ∧
    (¬Json.DenotesCount a → registry.compileRule field (.descriptor (Password.bounded a b)) =
      .error (.badOption "password" "min" (.notCount a))) ∧
    (Json.DenotesCount a → ¬Json.DenotesCount b →
      registry.compileRule field (.descriptor (Password.bounded a b)) =
        .error (.badOption "password" "max" (.notCount b))) ∧
    (¬(Json.DenotesCount a ∧ Json.DenotesCount b) →
      (registry.compileRule field (.pipe ("password" ++ ":" ++ Password.boundsText a b)) =
          .error (.badOption "password" "format" (.pattern .malformed)) ∧
        3000 < (Password.boundsText a b).length) ∨
      ∃ format,
        registry.compileRule field (.pipe ("password" ++ ":" ++ Password.boundsText a b)) =
          .ok (Password.ruleOf (.custom format)) ∧
        ∀ text : String, format.isMatch text = true ↔
          (Password.boundsText a b).toList <:+: text.toList) := by
  rw [compileRule_bounded hentry, compileRule_boundsText hentry ha hb]
  refine ⟨fun hmin hmax => ⟨?_, ?_⟩, fun hmin => ?_, fun hmin hmax => ?_, fun hcounts => ?_⟩
  · have hlist := (Password.isCountList_boundsText_iff ha hb).mpr ⟨hmin, hmax⟩
    rw [Password.textArgs, Builtin.charset_of_isCountList hlist rfl]
  · rw [Password.charset_bounded ha hb hmin hmax]
    split <;> rfl
  · rw [Password.charset_bounded_min ha hmin]
    rfl
  · rw [Password.charset_bounded_max ha hb hmin hmax]
    rfl
  · obtain ⟨hcharset, hlength⟩ | ⟨format, hcharset, hmatch⟩ :=
      Password.charset_textArgs ha hb hcounts field
    · exact .inl ⟨by rw [hcharset]; rfl, hlength⟩
    · exact .inr ⟨format, by rw [hcharset]; rfl, hmatch⟩

end Registry

namespace Password

-- The least number that is too great for a count.
def beyond : String := "18446744073709551616"

theorem isDigitRun_beyond : Text.isDigitRun beyond.toList = true := by decide

theorem not_denotesCount_beyond : ¬Json.DenotesCount beyond := by decide +kernel

end Password

namespace Registry

open scoped Regex

-- One bound is too great, and what stands after the colon is a format that matches itself.
theorem compileRule_digits_beyond :
    (Text.isDigitRun "1".toList = true ∧ Text.isDigitRun Password.beyond.toList = true) ∧
      compileRule {} "p" (.descriptor (Password.bounded "1" Password.beyond)) =
        .error (.badOption "password" "max" (.notCount Password.beyond)) ∧
      ∃ format,
        compileRule {} "p" (.pipe ("password" ++ ":" ++ Password.boundsText "1" Password.beyond)) =
          .ok (Password.ruleOf (.custom format)) ∧
        format.isMatch (Password.boundsText "1" Password.beyond) = true := by
  have hentry : resolve {} "password" = some (.builtin .password) := rfl
  have hone : Text.isDigitRun "1".toList = true := by decide
  have hbeyond := Password.isDigitRun_beyond
  have hmin : Json.DenotesCount "1" := by decide +kernel
  have hmax := Password.not_denotesCount_beyond
  rw [compileRule_bounded hentry, Password.charset_bounded_max hone hbeyond hmin hmax,
    compileRule_boundsText hentry hone hbeyond]
  refine ⟨⟨hone, hbeyond⟩, rfl, ?_⟩
  obtain ⟨-, hlength⟩ | ⟨format, hcharset, hmatch⟩ :=
    Password.charset_textArgs hone hbeyond (fun h => hmax h.2) "p"
  · exact absurd hlength (by decide)
  · exact ⟨format, by rw [hcharset]; rfl, (hmatch _).mpr (List.infix_refl _)⟩

theorem compileRule_digits_within :
    (resolve {} "password" = some (.builtin .password) ∧
      Text.isDigitRun "6".toList = true ∧ Text.isDigitRun "20".toList = true ∧
      Json.DenotesCount "6" ∧ Json.DenotesCount "20") ∧
    compileRule {} "p" (.pipe ("password" ++ ":" ++ Password.boundsText "6" "20")) =
      .ok (Password.ruleOf (.standard 6 20)) ∧
    Text.isDigitRun Password.beyond.toList = true ∧ ¬Json.DenotesCount Password.beyond ∧
    compileRule {} "p" (.descriptor (Password.bounded Password.beyond "20")) =
      .error (.badOption "password" "min" (.notCount Password.beyond)) := by
  have hentry : resolve {} "password" = some (.builtin .password) := rfl
  have hsix : Text.isDigitRun "6".toList = true := by decide
  have htwenty : Text.isDigitRun "20".toList = true := by decide
  have hmin : Json.DenotesCount "6" := by decide +kernel
  have hmax : Json.DenotesCount "20" := by decide +kernel
  have hbeyond := Password.isDigitRun_beyond
  obtain ⟨hsame, hrule⟩ := (compileRule_digits hentry hsix htwenty "p").1 hmin hmax
  exact ⟨⟨hentry, hsix, htwenty, hmin, hmax⟩, hsame.trans hrule, hbeyond,
    Password.not_denotesCount_beyond,
    (compileRule_digits hentry hbeyond htwenty "p").2.1 Password.not_denotesCount_beyond⟩

end Registry

end Rulebook
