import Rulebook.Proofs.Check.Digits
import Rulebook.Proofs.Check.Password
import Rulebook.Proofs.Compile.Tokens
import Rulebook.Proofs.Number.Nearest
import Rulebook.Proofs.Number.Overflow
import Rulebook.Regex.Engine

namespace Rulebook

open Outcome

namespace Numeral

variable {n : ℤ}

theorem digits_ofInt : (ofInt n).digits = Text.natDigits n.natAbs :=
  List.append_nil _

theorem isOptionText_iff {n : Numeral} : n.isOptionText = true ↔ n.digits ≠ [] := by
  rw [isOptionText, Bool.not_eq_true', List.isEmpty_eq_false_iff]

theorem decimal_ofInt : (ofInt n).decimal = ⟨n.natAbs, 0⟩ := by
  rw [decimal, digits_ofInt, Text.natOfDigits_natDigits]
  rfl

theorem negative_ofInt : (ofInt n).negative = decide (n < 0) := by
  by_cases hn : n < 0 <;> simp [negative, ofInt, minus, hn]

-- The digits of an integer are read as the float that it is rounded to.
theorem toBinary64?_ofInt (h : n.natAbs < 1 <<< 65) :
    (ofInt n).toBinary64? = some (Binary64.ofInt n h) := by
  have hcode : Binary64.nearest? (decide (n < 0)) n.natAbs 1 = some (Binary64.ofInt n h) := by
    rw [Binary64.nearest?, dif_pos (Binary64.nearestCode_lt h)]
    rfl
  rw [toBinary64?, decimal_ofInt, negative_ofInt]
  by_cases hzero : n.natAbs = 0
  · obtain rfl : n = 0 := by omega
    rfl
  · have hleading : (Decimal.mk n.natAbs 0).leading = (Text.natDigits n.natAbs).length - 1 :=
      add_zero _
    have hfirst : 0 < (Text.natDigits n.natAbs).length := Nat.length_toDigits_pos
    have hlast : (Text.natDigits n.natAbs).length ≤ 20 :=
      (Nat.length_toDigits_le_iff (by decide) (by decide)).mpr (h.trans_le (by decide))
    have hnumerator : (Decimal.mk n.natAbs 0).numerator = n.natAbs := Nat.mul_one _
    rw [if_neg hzero, hleading, if_neg (by omega), if_neg (by omega), hnumerator, ← hcode]
    rfl

end Numeral

namespace Text

theorem padded_self (cs : List Char) : Padded cs cs :=
  ⟨[], [], (List.append_nil cs).symm, nofun, nofun⟩

-- The texts of a number that a float can hold.
def IsFinite (cs : List Char) : Prop :=
  ∃ n, Numeral.read? cs = some n ∧ n.digits ≠ [] ∧ n.decimal.value < Binary64.overflow

-- The texts of a number that is too large for a float, and the words for what is no finite number,
-- in capitals or not.
inductive NotFinite (cs : List Char) : Prop
  | large {n : Numeral} (hread : Numeral.read? cs = some n)
      (hlarge : Binary64.overflow ≤ n.decimal.value)
  | word {sign : Option Char} {word : List Char} (htext : cs = sign.toList ++ word)
      (hsign : ∀ c ∈ sign, c = '-' ∨ c = '+')
      (hword : String.ofList (word.map Char.toLower) ∈ ["inf", "infinity", "nan"])

-- The words begin with a letter that no numeral has.
theorem read?_of_word {sign : Option Char} {word : List Char}
    (hsign : ∀ c ∈ sign, c = '-' ∨ c = '+')
    (hword : String.ofList (word.map Char.toLower) ∈ ["inf", "infinity", "nan"]) :
    Numeral.read? (sign.toList ++ word) = none := by
  have hfirst : ∀ s ∈ ["inf", "infinity", "nan"],
      s.toList.head? = some 'i' ∨ s.toList.head? = some 'n' := by
    decide
  obtain ⟨c, hc, hletter⟩ : ∃ c, word.head? = some c ∧ (c.toLower = 'i' ∨ c.toLower = 'n') := by
    simpa [List.head?_map, and_or_left, exists_or] using hfirst _ hword
  obtain ⟨rest, rfl⟩ := List.head?_eq_some_iff.mp hc
  refine Numeral.read?_eq_none hsign (Bool.eq_false_iff.mpr fun hdigit => ?_) fun hother => ?_
  · obtain ⟨k, hk, rfl⟩ := exists_digitChar hdigit
    have hdigits : ∀ k < 10,
        ¬((Nat.digitChar k).toLower = 'i' ∨ (Nat.digitChar k).toLower = 'n') := by
      decide
    exact hdigits k hk hletter
  · simp only [List.mem_cons, List.not_mem_nil, or_false] at hother
    rcases hother with rfl | rfl | rfl | rfl | rfl <;> revert hletter <;> decide

theorem NotFinite.not_isFinite {cs : List Char} (h : NotFinite cs) : ¬IsFinite cs := by
  rintro ⟨n, hread, -, hbelow⟩
  cases h with
  | large hother hlarge =>
      obtain rfl := Option.some.inj (hread.symm.trans hother)
      exact absurd hbelow (not_lt.mpr hlarge)
  | word htext hsign hword =>
      rw [htext, read?_of_word hsign hword] at hread
      cases hread

end Text

namespace Json

-- The values that an integer is given as: a number, or its digits with blanks around them.
inductive Shows (n : ℤ) : Json → Prop
  | number (fits : -9223372036854775808 ≤ n ∧ n < 18446744073709551616) :
      Shows n (.num (.int n fits))
  | text {s : String} (hs : Text.Padded (Text.intDigits n) s.toList) : Shows n (.str s)

-- Floats, even whole ones, integers below zero, and digits of a number that is too large.
inductive NoCount : Json → Prop
  | float (x : Binary64) : NoCount (.num (.float x))
  | negative {n : ℤ} {value : Json} (hn : n < 0) (hvalue : value.Shows n) : NoCount value
  | large {digits : List Char} {s : String} (hdigits : Text.isDigitRun digits = true)
      (hlarge : maxCount < Text.natOfDigits digits) (hs : Text.Padded digits s.toList) :
      NoCount (.str s)

variable {value : Json} {s : String}

theorem shows_natText (n : Nat) : (str (Text.natText n)).Shows n := by
  apply Shows.text
  rw [Text.natText, String.toList_ofList]
  exact Text.padded_self _

theorem countOfText?_of_padded {text cs : List Char} (h : Text.Padded text cs) :
    countOfText? cs = countOfText? text := by
  simp only [countOfText?, Text.trimChars_of_padded h]

theorem count?_of_shows {n : Nat} (h : value.Shows n) (hn : n ≤ maxCount) :
    value.count? = some n := by
  cases h with
  | number fits => rfl
  | text hs =>
      have hdigits : Text.intDigits n = Text.natDigits n := rfl
      rw [count?, countOfText?_of_padded hs, hdigits,
        countOfText?_of_isDigitRun (Text.isDigitRun_natDigits n), Text.natOfDigits_natDigits,
        if_pos hn]

theorem count?_of_noCount (h : value.NoCount) : value.count? = none := by
  cases h with
  | float x => rfl
  | negative hn hvalue =>
      obtain ⟨k, rfl⟩ := Int.eq_negSucc_of_lt_zero hn
      cases hvalue with
      | number fits => rfl
      | text hs =>
          rw [count?, countOfText?_of_padded hs, countOfText?, Text.trimChars_intDigits]
          simp [Text.intDigits, Text.isDigitRun]
  | large hdigits hlarge hs =>
      rw [count?, countOfText?_of_padded hs, countOfText?_of_isDigitRun hdigits,
        if_neg (not_le.mpr hlarge)]

theorem bound?_str (s : String) :
    (str s).bound? = (limitOfText? s.toList).map fun limit => ⟨limit, Text.trim s⟩ :=
  rfl

theorem limitOfText?_of_padded {n : ℤ} {cs : List Char} (h : Text.Padded (Text.intDigits n) cs)
    (hn : n.natAbs < 1 <<< 65) : limitOfText? cs = some (Binary64.ofInt n hn) := by
  have hread : Numeral.read? (Text.intDigits n) = some (.ofInt n) := by
    rw [← Numeral.write_ofInt, Numeral.read?_write (Numeral.wellFormed_ofInt n)]
  have hdigits : (Numeral.ofInt n).isOptionText = true := by
    rw [Numeral.isOptionText_iff, Numeral.digits_ofInt]
    exact Nat.toDigits_ne_nil
  rw [limitOfText?, Text.trimChars_of_padded h, Text.trimChars_intDigits, hread,
    Option.filter_some, if_pos hdigits, Option.bind_some, Numeral.toBinary64?_ofInt hn]

theorem bound?_of_shows {n : ℤ} (h : value.Shows n)
    (fits : -9223372036854775808 ≤ n ∧ n < 18446744073709551616) :
    value.bound? = some ⟨(Number.int n fits).toBinary64, String.ofList (Text.intDigits n)⟩ := by
  cases h with
  | number _ =>
      have htext : Text.trim (num (.int n fits)).display = String.ofList (Text.intDigits n) := by
        rw [Text.trim, display, Number.plain, String.toList_ofList, Text.trimChars_intDigits]
      rw [← htext]
      rfl
  | @text s hs =>
      have htext : Text.trim s = String.ofList (Text.intDigits n) := by
        rw [Text.trim, Text.trimChars_of_padded hs, Text.trimChars_intDigits]
      rw [bound?_str, limitOfText?_of_padded hs (Number.natAbs_lt fits), htext]
      rfl

theorem exists_bound?_str_iff :
    (∃ b, (str s).bound? = some b) ↔ Text.IsFinite (Text.trimChars s.toList) := by
  have hlimit (n : Numeral) : (∃ x, n.toBinary64? = some x) ↔
      n.decimal.value < Binary64.overflow := by
    rw [← not_le, ← Numeral.toBinary64?_eq_none_iff]
    exact Option.ne_none_iff_exists'.symm
  simp only [bound?_str, limitOfText?, Option.map_eq_some_iff, Option.bind_eq_some_iff,
    Option.filter_eq_some_iff, Numeral.isOptionText_iff, Text.IsFinite, ← hlimit]
  constructor
  · rintro ⟨_, limit, ⟨n, ⟨hread, hne⟩, hvalue⟩, -⟩
    exact ⟨n, hread, hne, limit, hvalue⟩
  · rintro ⟨n, hread, hne, limit, hvalue⟩
    exact ⟨_, limit, ⟨n, ⟨hread, hne⟩, hvalue⟩, rfl⟩

end Json

namespace Args

variable {args : Args} {name : String} {value : Json}

theorem bound_of_eq_some (hvalue : args.get? name = some value) {b : Bound}
    (hb : value.bound? = some b) : args.bound name = .ok (some b) := by
  simp only [bound, hvalue, hb]

theorem bound_of_eq_none (hvalue : args.get? name = some value) (hb : value.bound? = none) :
    args.bound name = args.refuse name (.notNumber value.display) := by
  simp only [bound, hvalue, hb]

end Args

namespace Params

-- A number behind the colon is the one option of a check of digits.
theorem bind_natText (name : String) (n : Nat) :
    (positional [name]).bind (Text.natText n) = [(name, .str (Text.natText n))] := by
  have hrun := Text.isDigitRun_natText n
  have htrim : Text.trimChars (Text.natText n).toList = (Text.natText n).toList :=
    Text.trimChars_of_isDigitRun hrun
  have hitems : ∀ item ∈ [Text.natText n], Text.trim item = item ∧ ',' ∉ item.toList := by
    refine List.forall_mem_singleton.mpr ⟨?_, Text.notMem_of_isDigitRun hrun (by decide)⟩
    rw [Text.trim, htrim, String.ofList_toList]
  have hblank : Text.allBlank (Text.natText n) = false := by
    rw [Text.allBlank, Bool.eq_false_iff, Ne, ← Text.trimChars_eq_nil_iff, htrim]
    exact (Text.isDigitRun_iff.mp hrun).1
  exact (bind_items hitems rfl hblank).1 (List.nodup_singleton name)

end Params

variable {n : Nat} {value : Json}

namespace Builtin

theorem build_numeric_len [Engine] (hn : n ≤ Json.maxCount) (hvalue : value.Shows n) {args : Args}
    (hoptions : args.options = [("len", value)]) :
    numeric.build args [] = .ok (.leaf (.numeric n)) := by
  have hget : args.get? "len" = some value := by
    rw [Args.get?, hoptions]
    cases hvalue <;> rfl
  have hlen : args.CountIs "len" 0 n := by
    rw [Args.CountIs, hget]
    exact Json.count?_of_shows hvalue hn
  exact build_numeric hlen []

end Builtin

namespace Registry

variable {registry : Registry}

-- A count of digits is the same behind the colon and as an option, as a number and as a text.
theorem compileRule_numeric [Engine]
    (hentry : registry.resolve "numeric" = some (.builtin .numeric))
    (hn : n ≤ Json.maxCount) (hvalue : value.Shows n) (field : String) :
    registry.compileRule field (.pipe ("numeric" ++ ":" ++ Text.natText n)) =
        .ok (.ofChecks [("numeric", .leaf (.numeric n))]) ∧
      registry.compileRule field (.descriptor { kind := "numeric", options := [("len", value)] }) =
        .ok (.ofChecks [("numeric", .leaf (.numeric n))]) := by
  have hbar : '|' ∉ ("numeric" ++ ":" ++ Text.natText n).toList := by
    rw [String.toList_append, List.mem_append, not_or]
    exact ⟨by decide, Text.notMem_of_isDigitRun (Text.isDigitRun_natText n) (by decide)⟩
  have htext : Entry.params (.builtin .numeric) = .positional ["len"] := rfl
  constructor
  · rw [compileRule_token hentry (by decide) (by decide) hbar, htext, Params.bind_natText,
      Entry.build, Builtin.build_numeric_len hn (Json.shows_natText n) rfl]
    rfl
  · rw [compileRule_alone hentry rfl (by cases hvalue <;> rfl) rfl, Entry.build,
      Builtin.build_numeric_len hn hvalue rfl]
    rfl

-- Options read the same as numbers and as texts. A count is read from either, and not from a
-- float, from an integer below zero or from digits of a greater number than it can hold. An integer
-- is a bound with the nearest float for its limit, and is shown in its digits. A text is a bound if
-- it is a number that a float can hold. A rule on the count of digits compiles to the same check
-- whichever way the count is given.
theorem reads_numerals [Engine] {args : Args} {name : String}
    (hvalue : args.get? name = some value) :
    (∀ n ≤ Json.maxCount, value.Shows n → args.count name = .ok (some n)) ∧
    (value.NoCount → args.count name = args.refuse name (.notCount value.display)) ∧
    (∀ (n : ℤ) (fits : -9223372036854775808 ≤ n ∧ n < 18446744073709551616), value.Shows n →
      (Number.int n fits).toBinary64.IsNearest n ∧
        args.bound name = .ok (some
          ⟨(Number.int n fits).toBinary64, String.ofList (Text.intDigits n)⟩)) ∧
    (∀ s, value = .str s →
      ((∃ bound, args.bound name = .ok bound) ↔ Text.IsFinite (Text.trimChars s.toList)) ∧
        (Text.NotFinite (Text.trimChars s.toList) →
          args.bound name = args.refuse name (.notNumber s))) ∧
    ∀ (registry : Registry) (n : Nat) (field : String),
      registry.resolve "numeric" = some (.builtin .numeric) → n ≤ Json.maxCount → value.Shows n →
        registry.compileRule field (.pipe ("numeric" ++ ":" ++ Text.natText n)) =
            .ok (.ofChecks [("numeric", .leaf (.numeric n))]) ∧
          registry.compileRule field
              (.descriptor { kind := "numeric", options := [("len", value)] }) =
            .ok (.ofChecks [("numeric", .leaf (.numeric n))]) := by
  refine ⟨fun n hn hshows => ?_, fun hno => ?_, fun n fits hshows => ⟨?_, ?_⟩, ?_,
    fun registry n field hentry hn hshows => compileRule_numeric hentry hn hshows field⟩
  · simp only [Args.count, hvalue, Json.count?_of_shows hshows hn]
  · simp only [Args.count, hvalue, Json.count?_of_noCount hno]
  · rw [← Number.value_int n fits]
    exact Number.isNearest_toBinary64 _
  · exact Args.bound_of_eq_some hvalue (Json.bound?_of_shows hshows fits)
  · rintro s rfl
    rw [← Json.exists_bound?_str_iff]
    have hrefused (h : ¬∃ b, (Json.str s).bound? = some b) :
        args.bound name = args.refuse name (.notNumber s) :=
      Args.bound_of_eq_none hvalue (Option.eq_none_iff_forall_ne_some.mpr (not_exists.mp h))
    refine ⟨⟨?_, ?_⟩, fun hnot => hrefused fun h => ?_⟩
    · rintro ⟨bound, hbound⟩
      by_contra h
      cases hbound.symm.trans (hrefused h)
    · rintro ⟨b, hb⟩
      exact ⟨_, Args.bound_of_eq_some hvalue hb⟩
    · exact hnot.not_isFinite (Json.exists_bound?_str_iff.mp h)

end Registry

-- Options with the first integer that is no float, as a number and as a text.
namespace NextTwoPow53

def text : String := "\t9007199254740993 "

def six : Json := .num (.float (Binary64.ofInt 6 (by decide)))

def args : Args :=
  { rule := "int", field := "n"
    options := [("min", .num .nextTwoPow53), ("max", .str text), ("large", .str "1e400"),
      ("word", .str "-Infinity"), ("float", six)] }

theorem shows_number : (Json.num .nextTwoPow53).Shows 9007199254740993 :=
  .number _

theorem shows_text : (Json.str text).Shows 9007199254740993 :=
  .text ⟨['\t'], [' '], rfl, List.forall_mem_singleton.mpr (by decide),
    List.forall_mem_singleton.mpr (by decide)⟩

theorem notFinite_large : Text.NotFinite (Text.trimChars "1e400".toList) :=
  .large (n := ⟨none, ['1'], none, some (none, "400".toList)⟩) (by decide)
    (Numeral.toBinary64?_eq_none_iff.mp (by decide))

theorem notFinite_word : Text.NotFinite (Text.trimChars "-Infinity".toList) :=
  @Text.NotFinite.word _ (some '-') "Infinity".toList (by decide) (by simp) (by decide)

end NextTwoPow53

open scoped Regex

theorem Registry.reads_numerals_next :
    (NextTwoPow53.args.get? "min" = some (.num .nextTwoPow53) ∧
      NextTwoPow53.args.get? "max" = some (.str NextTwoPow53.text) ∧
      Registry.resolve {} "numeric" = some (.builtin .numeric)) ∧
    (NextTwoPow53.args.count "min" = .ok (some 9007199254740993) ∧
      NextTwoPow53.args.count "max" = .ok (some 9007199254740993) ∧
      NextTwoPow53.args.count "float" = NextTwoPow53.args.refuse "float" (.notCount "6")) ∧
    (NextTwoPow53.args.bound "min" =
        .ok (some ⟨Number.twoPow53.toBinary64, "9007199254740993"⟩) ∧
      NextTwoPow53.args.bound "max" =
        .ok (some ⟨Number.twoPow53.toBinary64, "9007199254740993"⟩) ∧
      NextTwoPow53.args.bound "large" = NextTwoPow53.args.refuse "large" (.notNumber "1e400") ∧
      NextTwoPow53.args.bound "word" =
        NextTwoPow53.args.refuse "word" (.notNumber "-Infinity")) ∧
    Registry.compileRule {} "n" (.pipe ("numeric" ++ ":" ++ Text.natText 9007199254740993)) =
      Registry.compileRule {} "n"
        (.descriptor { kind := "numeric", options := [("len", .str NextTwoPow53.text)] }) := by
  have hnumber : NextTwoPow53.args.get? "min" = some (.num .nextTwoPow53) := rfl
  have htext : NextTwoPow53.args.get? "max" = some (.str NextTwoPow53.text) := rfl
  have hlarge : NextTwoPow53.args.get? "large" = some (.str "1e400") := rfl
  have hword : NextTwoPow53.args.get? "word" = some (.str "-Infinity") := rfl
  have hfloat : NextTwoPow53.args.get? "float" = some NextTwoPow53.six := rfl
  have hentry : Registry.resolve {} "numeric" = some (.builtin .numeric) := rfl
  have hcount : 9007199254740993 ≤ Json.maxCount := by decide
  have hfits : (-9223372036854775808 : ℤ) ≤ 9007199254740993 ∧
      (9007199254740993 : ℤ) < 18446744073709551616 := by decide
  have hbound : (⟨Number.nextTwoPow53.toBinary64,
      String.ofList (Text.intDigits 9007199254740993)⟩ : Bound) =
        ⟨Number.twoPow53.toBinary64, "9007199254740993"⟩ := by decide +kernel
  obtain ⟨hnumberCount, -, hnumberBound, -⟩ := reads_numerals hnumber
  obtain ⟨htextCount, -, htextBound, -, hcompile⟩ := reads_numerals htext
  obtain ⟨hpipe, hdescriptor⟩ := hcompile {} _ "n" hentry hcount NextTwoPow53.shows_text
  refine ⟨⟨hnumber, htext, hentry⟩, ⟨?_, ?_, ?_⟩, ⟨?_, ?_, ?_, ?_⟩, ?_⟩
  · exact hnumberCount _ hcount NextTwoPow53.shows_number
  · exact htextCount _ hcount NextTwoPow53.shows_text
  · have hsix : NextTwoPow53.six.display = "6" := by decide +kernel
    rw [← hsix]
    exact (reads_numerals hfloat).2.1 (.float _)
  · rw [← hbound]
    exact (hnumberBound _ hfits NextTwoPow53.shows_number).2
  · rw [← hbound]
    exact (htextBound _ hfits NextTwoPow53.shows_text).2
  · exact ((reads_numerals hlarge).2.2.2.1 _ rfl).2 NextTwoPow53.notFinite_large
  · exact ((reads_numerals hword).2.2.2.1 _ rfl).2 NextTwoPow53.notFinite_word
  · exact hpipe.trans hdescriptor.symm

end Rulebook
