import Rulebook.Number.Decimal
import Rulebook.Number.Rounding

namespace Rulebook

-- A number as it is written in decimal: sign, digits around a point, exponent.
structure Numeral where
  sign : Option Char
  whole : List Char
  fraction : Option (List Char)
  exponent : Option (Option Char × List Char)
deriving DecidableEq

namespace Numeral

private def takeSign : List Char → Option Char × List Char
  | '-' :: cs => (some '-', cs)
  | '+' :: cs => (some '+', cs)
  | cs => (none, cs)

private def takeFraction : List Char → Option (List Char) × List Char
  | '.' :: cs => (some (cs.takeWhile Char.isDigit), cs.dropWhile Char.isDigit)
  | cs => (none, cs)

-- An exponent reaches to the end and has a digit.
private def readExponent : List Char → Option (Option (Option Char × List Char))
  | [] => some none
  | c :: cs =>
      let (sign, digits) := takeSign cs
      if (c == 'e' || c == 'E') && Text.isDigitRun digits then some (some (sign, digits))
      else none

def read? (cs : List Char) : Option Numeral :=
  let (sign, cs) := takeSign cs
  let (fraction, rest) := takeFraction (cs.dropWhile Char.isDigit)
  (readExponent rest).map fun exponent =>
    { sign, whole := cs.takeWhile Char.isDigit, fraction, exponent }

def negative (n : Numeral) : Bool :=
  n.sign == some '-'

-- The digits on both sides of the point, read as one number.
def digits (n : Numeral) : List Char :=
  n.whole ++ n.fraction.getD []

def power (n : Numeral) : Int :=
  match n.exponent with
  | some (some '-', ds) => -(Text.natOfDigits ds : Int)
  | some (_, ds) => Text.natOfDigits ds
  | none => 0

def decimal (n : Numeral) : Decimal :=
  ⟨Text.natOfDigits n.digits, n.power - (n.fraction.getD []).length⟩

-- The nearest binary64 number, unless it is too large. Numbers from 10^400 and
-- those below 10^-400 are decided by their leading digit alone.
def toBinary64? (n : Numeral) : Option Binary64 :=
  let d := n.decimal
  if d.digits = 0 then some ⟨n.negative, Binary64.zero.code⟩
  else if 400 ≤ d.leading then none
  else if d.leading < -400 then some ⟨n.negative, Binary64.zero.code⟩
  else Binary64.nearest? n.negative d.numerator d.denominator

-- A text that a numeric option may hold: any sign, and a digit on either side of
-- the point.
def isOptionText (n : Numeral) : Bool :=
  !n.digits.isEmpty

-- A number of a JSON text: no plus sign, no leading zero, a digit on both sides
-- of the point.
def isJson (n : Numeral) : Bool :=
  n.sign != some '+' &&
    !n.whole.isEmpty && (n.whole.length == 1 || n.whole.head? != some '0') &&
    n.fraction != some []

def isInteger (n : Numeral) : Bool :=
  n.fraction.isNone && n.exponent.isNone

def fractionText : Option (List Char) → List Char
  | none => []
  | some digits => '.' :: digits

def exponentText : Option (Option Char × List Char) → List Char
  | none => []
  | some (sign, digits) => 'e' :: (sign.toList ++ digits)

-- The text of a numeral.
def write (n : Numeral) : List Char :=
  n.sign.toList ++ (n.whole ++ (fractionText n.fraction ++ exponentText n.exponent))

-- Signs are signs and digits are digits, and an exponent has one.
structure WellFormed (n : Numeral) : Prop where
  sign : ∀ c ∈ n.sign, c = '-' ∨ c = '+'
  whole : ∀ c ∈ n.whole, c.isDigit = true
  fraction : ∀ digits ∈ n.fraction, ∀ c ∈ digits, c.isDigit = true
  exponent : ∀ e ∈ n.exponent,
    (∀ c ∈ e.1, c = '-' ∨ c = '+') ∧ Text.isDigitRun e.2 = true

private theorem takeSign_append {sign : Option Char} {rest : List Char}
    (hsign : ∀ c ∈ sign, c = '-' ∨ c = '+') (hrest : ∀ c ∈ rest.head?, c ≠ '-' ∧ c ≠ '+') :
    takeSign (sign.toList ++ rest) = (sign, rest) := by
  cases sign with
  | some c => rcases hsign c rfl with rfl | rfl <;> rfl
  | none =>
      cases rest with
      | nil => rfl
      | cons c rest =>
          obtain ⟨hminus, hplus⟩ := hrest c rfl
          simp only [Option.toList_none, List.nil_append, takeSign]
          split <;> simp_all

-- A run of digits ends where something else begins.
private theorem takeWhile_digits {digits rest : List Char}
    (hdigits : ∀ c ∈ digits, c.isDigit = true) (hrest : ∀ c ∈ rest.head?, c.isDigit = false) :
    (digits ++ rest).takeWhile Char.isDigit = digits ∧
      (digits ++ rest).dropWhile Char.isDigit = rest := by
  rw [List.takeWhile_append_of_pos hdigits, List.dropWhile_append_of_pos hdigits]
  cases rest with
  | nil => simp
  | cons c rest => simp [hrest c rfl]

private theorem takeFraction_append {fraction : Option (List Char)} {rest : List Char}
    (hfraction : ∀ digits ∈ fraction, ∀ c ∈ digits, c.isDigit = true)
    (hrest : ∀ c ∈ rest.head?, c.isDigit = false ∧ c ≠ '.') :
    takeFraction (fractionText fraction ++ rest) = (fraction, rest) := by
  cases fraction with
  | some digits =>
      obtain ⟨htake, hdrop⟩ := takeWhile_digits (hfraction digits rfl) fun c hc => (hrest c hc).1
      simp only [fractionText, List.cons_append, takeFraction, htake, hdrop]
  | none =>
      cases rest with
      | nil => rfl
      | cons c rest =>
          have hpoint := (hrest c rfl).2
          simp only [fractionText, List.nil_append, takeFraction]
          split <;> simp_all

-- The texts of an exponent, with its letter in either case.
inductive ExponentText : Option (Option Char × List Char) → List Char → Prop
  | none : ExponentText none []
  | some {mark : Char} (hmark : mark = 'e' ∨ mark = 'E') (sign : Option Char)
      (digits : List Char) : ExponentText (some (sign, digits)) (mark :: (sign.toList ++ digits))

-- A text in which a numeral stands.
def WrittenIn (n : Numeral) (cs : List Char) : Prop :=
  ∃ tail, ExponentText n.exponent tail ∧
    cs = n.sign.toList ++ (n.whole ++ (fractionText n.fraction ++ tail))

theorem exponentText_exponentText (exponent : Option (Option Char × List Char)) :
    ExponentText exponent (exponentText exponent) := by
  cases exponent with
  | none => exact .none
  | some e => exact .some (.inl rfl) e.1 e.2

theorem writtenIn_write (n : Numeral) : n.WrittenIn n.write :=
  ⟨exponentText n.exponent, exponentText_exponentText n.exponent, rfl⟩

private theorem readExponent_of_text {exponent : Option (Option Char × List Char)}
    {tail : List Char} (htail : ExponentText exponent tail)
    (h : ∀ e ∈ exponent, (∀ c ∈ e.1, c = '-' ∨ c = '+') ∧ Text.isDigitRun e.2 = true) :
    readExponent tail = some exponent := by
  cases htail with
  | none => rfl
  | some hmark sign digits =>
      obtain ⟨hsign, hdigits⟩ := h _ rfl
      have hfirst : ∀ c ∈ digits.head?, c ≠ '-' ∧ c ≠ '+' := by
        intro c hc
        have hdigit := List.all_eq_true.mp (Bool.and_eq_true_iff.mp hdigits).2 c
          (List.mem_of_mem_head? hc)
        constructor <;> rintro rfl <;> cases hdigit
      rcases hmark with rfl | rfl <;>
      · simp only [readExponent, takeSign_append hsign hfirst, hdigits]
        rfl

private theorem head?_of_exponentText {exponent : Option (Option Char × List Char)}
    {tail : List Char} (htail : ExponentText exponent tail) {c : Char} (h : c ∈ tail.head?) :
    c = 'e' ∨ c = 'E' := by
  cases htail with
  | none => cases h
  | some hmark => exact Option.some.inj h ▸ hmark

private theorem head?_of_fractionText {fraction : Option (List Char)}
    {exponent : Option (Option Char × List Char)} {tail : List Char}
    (htail : ExponentText exponent tail) {c : Char}
    (h : c ∈ (fractionText fraction ++ tail).head?) : c = '.' ∨ c = 'e' ∨ c = 'E' := by
  cases fraction with
  | none => exact .inr (head?_of_exponentText htail h)
  | some digits => exact .inl (Option.some.inj h).symm

-- Every part is read as it is written, because it ends where the next one begins.
theorem read?_of_writtenIn {n : Numeral} {cs : List Char} (h : n.WellFormed)
    (hcs : n.WrittenIn cs) : read? cs = some n := by
  obtain ⟨sign, whole, fraction, exponent⟩ := n
  obtain ⟨hsign, hwhole, hfraction, hexponent⟩ := h
  obtain ⟨tail, htail, rfl⟩ := hcs
  have hbody : takeSign (sign.toList ++ (whole ++ (fractionText fraction ++ tail))) =
      (sign, whole ++ (fractionText fraction ++ tail)) := by
    apply takeSign_append hsign
    intro c hc
    cases whole with
    | nil => rcases head?_of_fractionText htail hc with rfl | rfl | rfl <;> decide
    | cons first whole =>
        have hdigit : c.isDigit = true := Option.some.inj hc ▸ hwhole first List.mem_cons_self
        constructor <;> rintro rfl <;> cases hdigit
  have hrest : ∀ c ∈ (fractionText fraction ++ tail).head?, c.isDigit = false := by
    intro c hc
    rcases head?_of_fractionText htail hc with rfl | rfl | rfl <;> rfl
  obtain ⟨htake, hdrop⟩ := takeWhile_digits hwhole hrest
  have hpoint : takeFraction (fractionText fraction ++ tail) = (fraction, tail) := by
    apply takeFraction_append hfraction
    intro c hc
    rcases head?_of_exponentText htail hc with rfl | rfl <;> decide
  simp only [read?, hbody, htake, hdrop, hpoint, readExponent_of_text htail hexponent,
    Option.map_some]

theorem read?_write {n : Numeral} (h : n.WellFormed) : read? n.write = some n :=
  read?_of_writtenIn h (writtenIn_write n)

private theorem takeSign_eq {cs rest : List Char} {sign : Option Char}
    (h : takeSign cs = (sign, rest)) :
    cs = sign.toList ++ rest ∧ ∀ c ∈ sign, c = '-' ∨ c = '+' := by
  unfold takeSign at h
  split at h <;> cases h <;> simp

private theorem takeFraction_eq {cs rest : List Char} {fraction : Option (List Char)}
    (h : takeFraction cs = (fraction, rest)) :
    cs = fractionText fraction ++ rest ∧
      ∀ digits ∈ fraction, ∀ c ∈ digits, c.isDigit = true := by
  unfold takeFraction at h
  split at h
  · next tail =>
      cases h
      refine ⟨?_, ?_⟩
      · rw [fractionText, List.cons_append, List.takeWhile_append_dropWhile]
      · rintro _ ⟨⟩ c hc
        exact List.all_eq_true.mp List.all_takeWhile c hc
  · cases h
    exact ⟨rfl, nofun⟩

private theorem readExponent_eq {cs : List Char} {exponent : Option (Option Char × List Char)}
    (h : readExponent cs = some exponent) :
    ExponentText exponent cs ∧
      ∀ e ∈ exponent, (∀ c ∈ e.1, c = '-' ∨ c = '+') ∧ Text.isDigitRun e.2 = true := by
  cases cs with
  | nil =>
      cases h
      exact ⟨.none, nofun⟩
  | cons mark cs =>
      rcases hrest : takeSign cs with ⟨sign, digits⟩
      obtain ⟨rfl, hsign⟩ := takeSign_eq hrest
      simp only [readExponent, hrest] at h
      split at h
      · next hread =>
          cases h
          rw [Bool.and_eq_true, Bool.or_eq_true, beq_iff_eq, beq_iff_eq] at hread
          refine ⟨.some hread.1 sign digits, ?_⟩
          rintro _ ⟨⟩
          exact ⟨hsign, hread.2⟩
      · cases h

-- A text is read as the numeral that stands in it.
theorem read?_eq_some_iff {cs : List Char} {n : Numeral} :
    read? cs = some n ↔ n.WellFormed ∧ n.WrittenIn cs := by
  refine ⟨fun h => ?_, fun ⟨hn, hcs⟩ => read?_of_writtenIn hn hcs⟩
  rcases hsign : takeSign cs with ⟨sign, body⟩
  rcases hfraction : takeFraction (body.dropWhile Char.isDigit) with ⟨fraction, rest⟩
  simp only [read?, hsign, hfraction, Option.map_eq_some_iff] at h
  obtain ⟨exponent, hexponent, rfl⟩ := h
  obtain ⟨rfl, hsigns⟩ := takeSign_eq hsign
  obtain ⟨hrest, hdigits⟩ := takeFraction_eq hfraction
  obtain ⟨htail, hexponents⟩ := readExponent_eq hexponent
  refine ⟨⟨hsigns, ?_, hdigits, hexponents⟩, rest, htail, ?_⟩
  · exact fun c hc => List.all_eq_true.mp List.all_takeWhile c hc
  · rw [← hrest, List.takeWhile_append_dropWhile]

-- A text that goes on behind its sign with a character of no numeral is none.
theorem read?_eq_none {sign : Option Char} {c : Char} {cs : List Char}
    (hsign : ∀ c ∈ sign, c = '-' ∨ c = '+') (hc : c.isDigit = false)
    (hother : c ∉ ['-', '+', '.', 'e', 'E']) : read? (sign.toList ++ c :: cs) = none := by
  simp only [List.mem_cons, List.not_mem_nil, or_false, not_or] at hother
  obtain ⟨hminus, hplus, hpoint, hlower, hupper⟩ := hother
  have hbody : takeSign (sign.toList ++ c :: cs) = (sign, c :: cs) :=
    takeSign_append hsign (by simp [hminus, hplus])
  have hfraction : takeFraction (c :: cs) = (none, c :: cs) := by
    simp only [takeFraction]
    split <;> simp_all
  have hdrop : (c :: cs).dropWhile Char.isDigit = c :: cs := by simp [hc]
  have hexponent : readExponent (c :: cs) = none := by simp [readExponent, hlower, hupper]
  simp only [read?, hbody, hdrop, hfraction, hexponent, Option.map_none]

end Numeral

end Rulebook
