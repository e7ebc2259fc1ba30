import Mathlib.Logic.Basic
import Mathlib.Tactic.SplitIfs
import Rulebook.Json.Printer
import Rulebook.Json.Quoted

namespace Rulebook

theorem Text.hexValue_hexDigit (n : Nat) : Text.hexValue (Text.hexDigit n) = some (n % 16) := by
  have hdigits : ∀ d < 16, Text.hexValue (Nat.digitChar d) = some d := by decide
  exact hdigits (n % 16) (Nat.mod_lt n (by decide))

namespace Json

namespace Piece

-- The letters behind a backslash, and the characters that they stand for.
def letters : List (Char × Char) :=
  [('"', '"'), ('\\', '\\'), ('/', '/'), ('b', '\x08'), ('f', '\x0c'), ('n', '\n'), ('r', '\r'),
    ('t', '\t')]

-- The pieces of what stands between two quotes.
inductive Reads : List Char → List Piece → Prop
  | nil : Reads [] []
  | plain {c : Char} {body : List Char} {pieces : List Piece} (hquote : c ≠ '"')
      (hslash : c ≠ '\\') (hcontrol : 0x20 ≤ c.toNat) (hrest : Reads body pieces) :
      Reads (c :: body) (.char c :: pieces)
  | letter {letter c : Char} {body : List Char} {pieces : List Piece}
      (hletter : (letter, c) ∈ letters) (hrest : Reads body pieces) :
      Reads ('\\' :: letter :: body) (.char c :: pieces)
  | unit {a b c d : Char} {x y z w : Nat} {body : List Char} {pieces : List Piece}
      (ha : Text.hexValue a = some x) (hb : Text.hexValue b = some y)
      (hc : Text.hexValue c = some z) (hd : Text.hexValue d = some w) (hrest : Reads body pieces) :
      Reads ('\\' :: 'u' :: a :: b :: c :: d :: body)
        (.unit (0x1000 * x + 0x100 * y + 0x10 * z + w) :: pieces)

-- The text that pieces are, in UTF-16.
inductive Joins : List Piece → List Char → Prop
  | nil : Joins [] []
  | char {pieces : List Piece} {text : List Char} (c : Char) (hrest : Joins pieces text) :
      Joins (.char c :: pieces) (c :: text)
  | unit {n : Nat} {pieces : List Piece} {text : List Char} (hn : n < 0xD800 ∨ 0xE000 ≤ n)
      (hrest : Joins pieces text) : Joins (.unit n :: pieces) (Char.ofNat n :: text)
  | pair {high low : Nat} {pieces : List Piece} {text : List Char}
      (hhigh : 0xD800 ≤ high ∧ high < 0xDC00) (hlow : 0xDC00 ≤ low ∧ low < 0xE000)
      (hrest : Joins pieces text) :
      Joins (.unit high :: .unit low :: pieces)
        (Char.ofNat (0x10000 + 0x400 * (high - 0xD800) + (low - 0xDC00)) :: text)

variable {body text : List Char} {pieces : List Piece}

theorem simpleEscape_eq_some_iff {letter c : Char} :
    simpleEscape letter = some c ↔ (letter, c) ∈ letters := by
  constructor
  · intro h
    unfold simpleEscape at h
    split at h <;> cases h <;> decide
  · intro h
    simp only [letters, List.mem_cons, Prod.mk.injEq, List.not_mem_nil, or_false] at h
    rcases h with ⟨rfl, rfl⟩ | ⟨rfl, rfl⟩ | ⟨rfl, rfl⟩ | ⟨rfl, rfl⟩ | ⟨rfl, rfl⟩ | ⟨rfl, rfl⟩ |
      ⟨rfl, rfl⟩ | ⟨rfl, rfl⟩ <;> rfl

theorem isPlain_iff {c : Char} : isPlain c = true ↔ c ≠ '"' ∧ c ≠ '\\' ∧ 0x20 ≤ c.toNat := by
  simp [isPlain, and_assoc]

theorem hexUnit?_eq_some_iff {a b c d : Char} {n : Nat} :
    hexUnit? a b c d = some n ↔ ∃ x y z w, Text.hexValue a = some x ∧ Text.hexValue b = some y ∧
      Text.hexValue c = some z ∧ Text.hexValue d = some w ∧
        n = 0x1000 * x + 0x100 * y + 0x10 * z + w := by
  simp only [hexUnit?, List.foldlM_cons, List.foldlM_nil, Option.bind_eq_bind,
    Option.bind_eq_some_iff, Option.map_eq_some_iff, Option.pure_def, Option.some.injEq]
  constructor
  · rintro ⟨_, ⟨x, hx, rfl⟩, _, ⟨y, hy, rfl⟩, _, ⟨z, hz, rfl⟩, _, ⟨w, hw, rfl⟩, rfl⟩
    exact ⟨x, y, z, w, hx, hy, hz, hw, by omega⟩
  · rintro ⟨x, y, z, w, hx, hy, hz, hw, rfl⟩
    exact ⟨_, ⟨x, hx, rfl⟩, _, ⟨y, hy, rfl⟩, _, ⟨z, hz, rfl⟩, _, ⟨w, hw, rfl⟩, by omega⟩

theorem reads_of_readAll? (h : readAll? body = some pieces) : Reads body pieces := by
  fun_induction readAll? body generalizing pieces with
  | case1 =>
      cases h
      exact .nil
  | case2 a b c d rest ih =>
      obtain ⟨n, hn, h⟩ := Option.bind_eq_some_iff.mp h
      obtain ⟨more, hmore, rfl⟩ := Option.map_eq_some_iff.mp h
      obtain ⟨x, y, z, w, hx, hy, hz, hw, rfl⟩ := hexUnit?_eq_some_iff.mp hn
      exact .unit hx hy hz hw (ih hmore)
  | case3 letter rest hunit ih =>
      obtain ⟨c, hc, h⟩ := Option.bind_eq_some_iff.mp h
      obtain ⟨more, hmore, rfl⟩ := Option.map_eq_some_iff.mp h
      exact .letter (simpleEscape_eq_some_iff.mp hc) (ih hmore)
  | case4 c rest hunit hletter hplain ih =>
      obtain ⟨more, hmore, rfl⟩ := Option.map_eq_some_iff.mp h
      obtain ⟨hquote, hslash, hcontrol⟩ := isPlain_iff.mp hplain
      exact .plain hquote hslash hcontrol (ih hmore)
  | case5 => cases h

theorem readAll?_plain {c : Char} (hc : isPlain c = true) (body : List Char) :
    readAll? (c :: body) = (readAll? body).map (.char c :: ·) := by
  have hslash := (isPlain_iff.mp hc).2.1
  rw [readAll?, if_pos hc]
  · rintro _ _ _ _ _ rfl
    exact (hslash rfl).elim
  · rintro _ _ rfl
    exact (hslash rfl).elim

theorem readAll?_letter {letter c : Char} (hletter : simpleEscape letter = some c)
    (body : List Char) :
    readAll? ('\\' :: letter :: body) = (readAll? body).map (.char c :: ·) := by
  rw [readAll?, hletter]
  · rfl
  · rintro _ _ _ _ _ rfl
    cases hletter

theorem readAll?_of_reads (h : Reads body pieces) : readAll? body = some pieces := by
  induction h with
  | nil => rfl
  | plain hquote hslash hcontrol _ ih =>
      rw [readAll?_plain (isPlain_iff.mpr ⟨hquote, hslash, hcontrol⟩), ih]
      rfl
  | letter hletter _ ih =>
      rw [readAll?_letter (simpleEscape_eq_some_iff.mpr hletter), ih]
      rfl
  | unit ha hb hc hd _ ih =>
      rw [readAll?, hexUnit?_eq_some_iff.mpr ⟨_, _, _, _, ha, hb, hc, hd, rfl⟩, ih]
      rfl

theorem readAll?_eq_some_iff : readAll? body = some pieces ↔ Reads body pieces :=
  ⟨reads_of_readAll?, readAll?_of_reads⟩

theorem isHigh_iff {n : Nat} : isHigh n = true ↔ 0xD800 ≤ n ∧ n < 0xDC00 := by
  simp [isHigh]

theorem isLow_iff {n : Nat} : isLow n = true ↔ 0xDC00 ≤ n ∧ n < 0xE000 := by
  simp [isLow]

theorem not_surrogate_iff {n : Nat} :
    ¬(isHigh n || isLow n) = true ↔ n < 0xD800 ∨ 0xE000 ≤ n := by
  rw [Bool.or_eq_true, isHigh_iff, isLow_iff]
  omega

theorem joins_of_join? (h : join? pieces = some text) : Joins pieces text := by
  fun_induction join? pieces generalizing text with
  | case1 =>
      cases h
      exact .nil
  | case2 c rest ih =>
      obtain ⟨more, hmore, rfl⟩ := Option.map_eq_some_iff.mp h
      exact .char c (ih hmore)
  | case3 high low rest hpair ih =>
      obtain ⟨more, hmore, rfl⟩ := Option.map_eq_some_iff.mp h
      rw [Bool.and_eq_true, isHigh_iff, isLow_iff] at hpair
      have hjoins := Joins.pair hpair.1 hpair.2 (ih hmore)
      rwa [Nat.mul_comm] at hjoins
  | case4 => cases h
  | case5 high low rest _ hplain ih =>
      obtain ⟨more, hmore, rfl⟩ := Option.map_eq_some_iff.mp h
      exact .unit (not_surrogate_iff.mp hplain) (ih hmore)
  | case6 => cases h
  | case7 n rest _ hplain ih =>
      obtain ⟨more, hmore, rfl⟩ := Option.map_eq_some_iff.mp h
      exact .unit (not_surrogate_iff.mp hplain) (ih hmore)

theorem join?_unit {n : Nat} (hn : n < 0xD800 ∨ 0xE000 ≤ n) (pieces : List Piece) :
    join? (.unit n :: pieces) = (join? pieces).map (Char.ofNat n :: ·) := by
  have hplain := not_surrogate_iff.mpr hn
  have hhigh : isHigh n = false := by
    rw [Bool.not_eq_true, Bool.or_eq_false_iff] at hplain
    exact hplain.1
  cases pieces with
  | nil => exact if_neg hplain
  | cons piece rest =>
      cases piece with
      | char c => exact if_neg hplain
      | unit low =>
          rw [join?, if_neg hplain, hhigh]
          rfl

theorem join?_of_joins (h : Joins pieces text) : join? pieces = some text := by
  induction h with
  | nil => rfl
  | char c _ ih =>
      rw [join?, ih]
      rfl
  | unit hn _ ih =>
      rw [join?_unit hn, ih]
      rfl
  | pair hhigh hlow _ ih =>
      rw [join?, isHigh_iff.mpr hhigh, isLow_iff.mpr hlow, ih, Nat.mul_comm]
      rfl

theorem join?_eq_some_iff : join? pieces = some text ↔ Joins pieces text :=
  ⟨joins_of_join?, join?_of_joins⟩

-- What is written for a character is one piece that stands for it.
theorem reads_escape (c : Char) (h : Reads body pieces) :
    ∃ piece, Reads (escape c ++ body) (piece :: pieces) ∧
      ∀ text, Joins pieces text → Joins (piece :: pieces) (c :: text) := by
  have hletter {letter : Char} (hmem : (letter, c) ∈ letters) :
      ∃ piece, Reads (['\\', letter] ++ body) (piece :: pieces) ∧
        ∀ text, Joins pieces text → Joins (piece :: pieces) (c :: text) :=
    ⟨.char c, .letter hmem h, fun _ => .char c⟩
  simp only [escape, beq_iff_eq]
  split_ifs with hquote hslash hbackspace hfeed hline hreturn htab hcontrol
  · exact hletter (by rw [hquote]; decide)
  · exact hletter (by rw [hslash]; decide)
  · exact hletter (by rw [hbackspace]; decide)
  · exact hletter (by rw [hfeed]; decide)
  · exact hletter (by rw [hline]; decide)
  · exact hletter (by rw [hreturn]; decide)
  · exact hletter (by rw [htab]; decide)
  · have hdigit (n : Nat) := Text.hexValue_hexDigit n
    refine ⟨.unit c.toNat, ?_, fun text htext => ?_⟩
    · have hunit := Reads.unit (hdigit (c.toNat / 16 / 16 / 16)) (hdigit (c.toNat / 16 / 16))
        (hdigit (c.toNat / 16)) (hdigit c.toNat) h
      have hvalue : 0x1000 * (c.toNat / 16 / 16 / 16 % 16) + 0x100 * (c.toNat / 16 / 16 % 16) +
          0x10 * (c.toNat / 16 % 16) + c.toNat % 16 = c.toNat := by
        omega
      rwa [hvalue] at hunit
    · have hjoins := Joins.unit (.inl (by omega : c.toNat < 0xD800)) htext
      rwa [Char.ofNat_toNat] at hjoins
  · exact ⟨.char c, .plain hquote hslash (by omega) h, fun _ => .char c⟩

end Piece

-- The text of what stands between two quotes.
def Quotes (body : List Char) (s : String) : Prop :=
  ∃ pieces, Piece.Reads body pieces ∧ Piece.Joins pieces s.toList

theorem unquote?_eq_some_iff {body : List Char} {s : String} :
    unquote? body = some s ↔ Quotes body s := by
  simp only [unquote?, Option.map_eq_some_iff, Option.bind_eq_some_iff,
    Piece.readAll?_eq_some_iff, Piece.join?_eq_some_iff, Quotes]
  constructor
  · rintro ⟨text, ⟨pieces, hreads, hjoins⟩, rfl⟩
    rw [String.toList_ofList]
    exact ⟨pieces, hreads, hjoins⟩
  · rintro ⟨pieces, hreads, hjoins⟩
    exact ⟨s.toList, ⟨pieces, hreads, hjoins⟩, String.ofList_toList⟩

-- What is written between two quotes stands for the text.
theorem quotes_escape (s : String) : Quotes (s.toList.flatMap escape) s := by
  unfold Quotes
  induction s.toList with
  | nil => exact ⟨[], .nil, .nil⟩
  | cons c cs ih =>
      obtain ⟨pieces, hreads, hjoins⟩ := ih
      obtain ⟨piece, hreads, hpiece⟩ := Piece.reads_escape c hreads
      exact ⟨piece :: pieces, hreads, hpiece cs hjoins⟩

end Json

end Rulebook
