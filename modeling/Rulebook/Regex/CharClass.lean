import Rulebook.Text.Blank
import Rulebook.Text.CaseFold
import Rulebook.Text.DecimalDigit
import Rulebook.Text.WordChar

namespace Rulebook

-- A set of characters, as an expression.
inductive CharClass
  | none
  | range (first last : Char)
  | digit
  | word
  | space
  | union (a b : CharClass)
  | inter (a b : CharClass)
  | compl (a : CharClass)
  -- With every character also those that differ from it in case only.
  | fold (a : CharClass)
deriving DecidableEq, Hashable

namespace CharClass

def mem : CharClass → Char → Bool
  | none, _ => false
  | range first last, c => decide (first ≤ c) && decide (c ≤ last)
  | digit, c => Text.isDecimalDigit c
  | word, c => Text.isWord c
  | space, c => Text.isBlank c
  | union a b, c => a.mem c || b.mem c
  | inter a b, c => a.mem c && b.mem c
  | compl a, c => !a.mem c
  | fold a, c => a.mem c || (Text.caseVariants c.toNat).any fun n => a.mem (Char.ofNat n)

-- The members as code points in settled ranges.
def ranges : CharClass → List (Nat × Nat)
  | none => []
  | range first last => if first ≤ last then [(first.toNat, last.toNat)] else []
  | digit => Text.digitRanges
  | word => Text.wordRanges
  | space => Text.blankRanges
  | union a b => Text.settleRanges (a.ranges ++ b.ranges)
  | inter a b => Text.interRanges a.ranges b.ranges
  | compl a => Text.complRanges a.ranges
  | fold a =>
      let members := a.ranges
      let touched := Text.caseGroups.filter fun group => group.any (Text.inRanges members)
      Text.settleRanges (members ++ touched.flatten.map fun n => (n, n))

def single (c : Char) : CharClass :=
  range c c

def all : CharClass :=
  compl none

def join : CharClass → CharClass → CharClass
  | none, b => b
  | a, none => a
  | a, b => union a b

def ofChars (cs : List Char) : CharClass :=
  cs.foldl (fun set c => set.join (single c)) none

def diff (a b : CharClass) : CharClass :=
  inter a (compl b)

def symmDiff (a b : CharClass) : CharClass :=
  union (diff a b) (diff b a)

def negateIf (negated : Bool) (a : CharClass) : CharClass :=
  if negated then compl a else a

def foldIf (ignoreCase : Bool) (a : CharClass) : CharClass :=
  if ignoreCase then fold a else a

end CharClass

end Rulebook
