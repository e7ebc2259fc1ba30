namespace Rulebook.Text

-- Sets of code points are lists of ranges with both ends included. A settled list is
-- ascending, with a gap between any two of its ranges.
def inRanges (ranges : List (Nat × Nat)) (n : Nat) : Bool :=
  ranges.any fun (first, last) => decide (first ≤ n) && decide (n ≤ last)

def lastCode : Nat := 0x10FFFF

-- Adds a range that begins no earlier than those before it, which are in reverse.
def appendRange (before : List (Nat × Nat)) (range : Nat × Nat) : List (Nat × Nat) :=
  match before with
  | (first, last) :: rest =>
      if range.1 ≤ last + 1 then (first, max last range.2) :: rest else range :: before
  | [] => [range]

def settleRanges (ranges : List (Nat × Nat)) : List (Nat × Nat) :=
  ((ranges.mergeSort fun a b => a.1 ≤ b.1).foldl appendRange []).reverse

-- What a settled list leaves out from a code point on.
def gaps (start : Nat) : List (Nat × Nat) → List (Nat × Nat)
  | [] => if start ≤ lastCode then [(start, lastCode)] else []
  | (first, last) :: rest =>
      (if start < first then [(start, first - 1)] else []) ++ gaps (last + 1) rest

def complRanges (ranges : List (Nat × Nat)) : List (Nat × Nat) :=
  gaps 0 ranges

def interRanges (a b : List (Nat × Nat)) : List (Nat × Nat) :=
  complRanges (settleRanges (complRanges a ++ complRanges b))

-- No range of characters begins or ends in a surrogate.
def trimSurrogates (ranges : List (Nat × Nat)) : List (Nat × Nat) :=
  ranges.filterMap fun (first, last) =>
    let first := if 0xD800 ≤ first ∧ first < 0xE000 then 0xE000 else first
    let last := if 0xD800 ≤ last ∧ last < 0xE000 then 0xD7FF else last
    if first ≤ last then some (first, last) else none

end Rulebook.Text
