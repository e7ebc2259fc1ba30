import Rulebook.Number.Binary64
import Rulebook.Number.Decimal

namespace Rulebook.Binary64

-- Every real number between low and high reads back as the given number, and so
-- do the two ends when the mantissa is even. All is counted in quarters of the
-- least positive number. Below a power of two the numbers are twice as dense.
structure Neighbourhood where
  low : Nat
  centre : Nat
  high : Nat
  closed : Bool

def neighbourhood (x : Binary64) : Neighbourhood :=
  let gap := 1 <<< x.shift
  let centre := 4 * x.size
  { low := centre - (if x.mantissa = 1 <<< 52 ∧ 0 < x.shift then gap else 2 * gap)
    centre
    high := centre + 2 * gap
    closed := x.mantissa % 2 == 0 }

namespace Neighbourhood

def contains (b : Neighbourhood) (d : Decimal) : Bool :=
  let p := d.numerator * (4 * one)
  let q := d.denominator
  if b.closed then b.low * q ≤ p && p ≤ b.high * q else b.low * q < p && p < b.high * q

-- The distance to the centre, times the denominator of the decimal.
def distance (b : Neighbourhood) (d : Decimal) : Nat :=
  let p := d.numerator * (4 * one)
  let q := b.centre * d.denominator
  (p - q) + (q - p)

-- Of two decimals on one grid, the one inside, and of two inside the nearer; a
-- tie goes to the even digits.
def choose (b : Neighbourhood) (below above : Decimal) : Option Decimal :=
  match b.contains below, b.contains above with
  | false, false => none
  | true, false => some below
  | false, true => some above
  | true, true =>
      if b.distance below < b.distance above then some below
      else if b.distance above < b.distance below then some above
      else if below.digits % 2 = 0 then some below
      else some above

-- The choice between the two neighbours of the centre on the grid of the
-- multiples of 10^exponent.
def onGrid (b : Neighbourhood) (exponent : Int) : Option Decimal :=
  let below := b.centre * Nat.pow 10 (-exponent).toNat / (4 * one * Nat.pow 10 exponent.toNat)
  b.choose ⟨below, exponent⟩ ⟨below + 1, exponent⟩

end Neighbourhood

-- The magnitude with all its digits.
def exact (x : Binary64) : Decimal :=
  ⟨x.size * Nat.pow 5 finest, -finest⟩

-- The least decimal for the magnitude in the count of its digits, and among those
-- the nearest. Seventeen digits are always enough.
def shortest (x : Binary64) : Decimal :=
  let leading : Int := (Text.natDigits (x.size * Nat.pow 10 finest / one)).length - 1 - finest
  ((List.range 17).findSome? fun n : Nat => x.neighbourhood.onGrid (leading - n)).getD x.exact

end Rulebook.Binary64
