import Rulebook.Text.CodeRange

namespace Rulebook.Text

-- The code points of the Unicode property White_Space.
def blankRanges : List (Nat × Nat) := [
    (0x9, 0xD), (0x20, 0x20), (0x85, 0x85), (0xA0, 0xA0), (0x1680, 0x1680), (0x2000, 0x200A),
    (0x2028, 0x2029), (0x202F, 0x202F), (0x205F, 0x205F), (0x3000, 0x3000)]

def isBlank (c : Char) : Bool :=
  inRanges blankRanges c.toNat

def trimStart (cs : List Char) : List Char :=
  cs.dropWhile isBlank

def trimEnd (cs : List Char) : List Char :=
  (trimStart cs.reverse).reverse

def trimChars (cs : List Char) : List Char :=
  trimEnd (trimStart cs)

-- The text without the blank characters at its two ends.
def trim (s : String) : String :=
  String.ofList (trimChars s.toList)

-- A text that is empty or holds blank characters only.
def allBlank (s : String) : Bool :=
  s.toList.all isBlank

end Rulebook.Text
