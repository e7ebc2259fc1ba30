namespace Rulebook

-- The finite binary64 numbers. The code is the 63 bits below the sign: eleven
-- bits of exponent, not all ones, and 52 bits of fraction. Codes are ordered as
-- the magnitudes are.
structure Binary64 where
  negative : Bool
  code : Fin (2047 <<< 52)
deriving DecidableEq

namespace Binary64

def zero : Binary64 := ⟨false, ⟨0, by decide⟩⟩

-- The least positive number is 2^-finest. All magnitudes are multiples of it.
def finest : Nat := 1074

-- The number 1 in units of the least positive number.
def one : Nat := 1 <<< finest

-- The magnitude is mantissa · 2^shift units. Codes below 2^52 are the subnormal
-- numbers, which lack the leading bit.
def mantissa (x : Binary64) : Nat :=
  if x.code.val < 1 <<< 52 then x.code.val else (1 <<< 52) + x.code.val % (1 <<< 52)

def shift (x : Binary64) : Nat :=
  (x.code.val >>> 52) - 1

def size (x : Binary64) : Nat :=
  x.mantissa <<< x.shift

-- The exact value in units of the least positive number.
def units (x : Binary64) : Int :=
  if x.negative then -(x.size : Int) else x.size

-- Equality of values: the two zeros are equal.
def same (x y : Binary64) : Bool :=
  x.units == y.units

def lt (x y : Binary64) : Bool :=
  decide (x.units < y.units)

def isIntegral (x : Binary64) : Bool :=
  x.size % one == 0

-- The part before the point.
def whole (x : Binary64) : Int :=
  if x.negative then -((x.size / one : Nat) : Int) else (x.size / one : Nat)

-- The 64 bits.
def word (x : Binary64) : Nat :=
  (if x.negative then 1 <<< 63 else 0) + x.code.val

end Binary64

end Rulebook
