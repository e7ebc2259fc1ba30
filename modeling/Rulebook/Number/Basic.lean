import Rulebook.Number.Scientific
import Rulebook.Number.Shortest

namespace Rulebook

-- The numbers of JSON data: integers of 64 bits, with or without sign, and finite
-- binary64 numbers. The integer 1 and the float 1 are different numbers.
inductive Number
  | int (n : Int) (fits : -9223372036854775808 ≤ n ∧ n < 18446744073709551616)
  | float (x : Binary64)
deriving DecidableEq

namespace Number

theorem natAbs_lt {n : Int} (fits : -9223372036854775808 ≤ n ∧ n < 18446744073709551616) :
    n.natAbs < 1 <<< 65 := by
  omega

-- The nearest binary64 number.
def toBinary64 : Number → Binary64
  | int n fits => Binary64.ofInt n (natAbs_lt fits)
  | float x => x

-- Equality within one kind. An integer and a float are never equal.
def same : Number → Number → Bool
  | int a _, int b _ => a == b
  | float x, float y => x.same y
  | _, _ => false

def isInteger : Number → Bool
  | int _ _ => true
  | float x => x.isIntegral

def toNat? : Number → Option Nat
  | int (.ofNat n) _ => some n
  | _ => none

-- An integer that fits 64 bits with sign.
def toSigned? : Number → Option Int
  | int n _ => if n < 9223372036854775808 then some n else none
  | float _ => none

-- The layout of floats in JSON text.
def floatLayout : Decimal.Layout :=
  ⟨-5, 15⟩

def writeFloat (x : Binary64) : List Char :=
  (if x.negative then ['-'] else []) ++
    (if x.size = 0 then ['0', '.', '0'] else x.shortest.write floatLayout)

-- The form of a number in JSON text.
def write : Number → List Char
  | int n _ => Text.intDigits n
  | float x => writeFloat x

-- The form of a number in messages and in checks of texts: integral floats below
-- 10^21 are written as integers, without a sign of zero.
def plain : Number → List Char
  | int n _ => Text.intDigits n
  | float x =>
      if x.isIntegral && decide (x.whole.natAbs < 1000000000000000000000) then
        Text.intDigits x.whole
      else writeFloat x

-- A JSON number. Integers outside 64 bits and minus zero are floats, and a number
-- too large for a float is none.
def ofNumeral? (n : Numeral) : Option Number :=
  if !n.isJson then none
  else
    let whole : Int :=
      if n.negative then -(Text.natOfDigits n.whole : Int) else Text.natOfDigits n.whole
    if h : n.isInteger ∧ ¬(n.negative ∧ whole = 0) ∧
        -9223372036854775808 ≤ whole ∧ whole < 18446744073709551616 then
      some (int whole h.2.2)
    else n.toBinary64?.map float

def read? (cs : List Char) : Option Number :=
  (Numeral.read? cs).bind ofNumeral?

end Number

end Rulebook
