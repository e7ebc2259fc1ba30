import Rulebook.Text.Numeral

namespace Rulebook

-- The number digits · 10^exponent.
structure Decimal where
  digits : Nat
  exponent : Int
deriving DecidableEq

namespace Decimal

-- The fraction numerator / denominator of natural numbers.
def numerator (d : Decimal) : Nat :=
  d.digits * Nat.pow 10 d.exponent.toNat

def denominator (d : Decimal) : Nat :=
  Nat.pow 10 (-d.exponent).toNat

-- The digits without the zeros at their end.
def significant (d : Decimal) : List Char :=
  ((Text.natDigits d.digits).reverse.dropWhile (· == '0')).reverse

-- The power of ten of the first digit.
def leading (d : Decimal) : Int :=
  (Text.natDigits d.digits).length - 1 + d.exponent

-- How the text of a number is laid out: the powers of ten of the first digit for
-- which it is written without an exponent.
structure Layout where
  plainFrom : Int
  plainTo : Int

-- Plain notation always has a fraction. The exponent always has a sign, and a
-- mantissa of one digit has no point.
def write (layout : Layout) (d : Decimal) : List Char :=
  let ds := d.significant
  let k := d.leading
  if layout.plainFrom ≤ k ∧ k ≤ layout.plainTo then
    if k < 0 then
      ['0', '.'] ++ List.replicate ((-k).toNat - 1) '0' ++ ds
    else
      let width := k.toNat + 1
      let fraction := ds.drop width
      ds.take width ++ List.replicate (width - ds.length) '0' ++ ['.'] ++
        (if fraction.isEmpty then ['0'] else fraction)
  else
    ds.take 1 ++ (if ds.length ≤ 1 then [] else '.' :: ds.drop 1) ++ ['e'] ++
      (if k < 0 then ['-'] else ['+']) ++ Text.natDigits k.natAbs

end Decimal

end Rulebook
