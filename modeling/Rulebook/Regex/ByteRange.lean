import Rulebook.Text.CodeRange

namespace Rulebook.Regex

-- The UTF-8 forms of a range of characters, as sequences of byte ranges. All bytes of
-- a sequence can be chosen independently.
namespace ByteRange

-- The code points of several bytes, by the length of their forms and without the
-- surrogates.
def blocks : List (Nat × Nat) :=
  [(0x80, 0x7FF), (0x800, 0xD7FF), (0xE000, 0xFFFF), (0x10000, Text.lastCode)]

def clip (range block : Nat × Nat) : Option (Nat × Nat) :=
  let first := max range.1 block.1
  let last := min range.2 block.2
  if first ≤ last then some (first, last) else none

-- Cuts a range that crosses a multiple of the size where its first and its last
-- stretch are not whole.
def align (size : Nat) (range : Nat × Nat) : List (Nat × Nat) :=
  let (first, last) := range
  if first / size = last / size then [range]
  else
    let start := if first % size = 0 then first else (first / size + 1) * size
    let stop := if last % size = size - 1 then last + 1 else last / size * size
    (if first < start then [(first, start - 1)] else []) ++
      (if start < stop then [(start, stop - 1)] else []) ++
      (if stop ≤ last then [(stop, last)] else [])

def bytes (code : Nat) : List Nat :=
  (String.utf8EncodeChar (Char.ofNat code)).map UInt8.toNat

-- A byte after the first counts 64 code points of the next one, so a range is cut where
-- one of its bytes would not run through all its values.
def stretches (range : Nat × Nat) : List (Nat × Nat) :=
  (((blocks.filterMap (clip range)).flatMap (align 64)).flatMap (align 4096)).flatMap
    (align 262144)

def sequences (range : Nat × Nat) : List (List (Nat × Nat)) :=
  ((clip range (0, 0x7F)).toList ++ stretches range).map fun (first, last) =>
    (bytes first).zip (bytes last)

end ByteRange

end Rulebook.Regex
