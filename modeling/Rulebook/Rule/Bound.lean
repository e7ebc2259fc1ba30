import Rulebook.Json.Inspect

namespace Rulebook

-- A limit, with the text that messages show for it.
structure Bound where
  limit : Binary64
  text : String
deriving DecidableEq

namespace Bound

def ofNat (n : Nat) (h : n < 18446744073709551616) : Bound :=
  ⟨Binary64.ofInt n (by omega), Text.natText n⟩

end Bound

namespace Json

-- The greatest count that an option can hold.
def maxCount : Nat := UInt64.size - 1

-- Digits with an optional plus sign and blanks around them.
def countOfText? (cs : List Char) : Option Nat :=
  let digits := match Text.trimChars cs with
    | '+' :: cs => cs
    | cs => cs
  if Text.isDigitRun digits ∧ Text.natOfDigits digits ≤ maxCount then
    some (Text.natOfDigits digits)
  else none

-- A count, as a number or as a text.
def count? : Json → Option Nat
  | .num n => n.toNat?
  | .str s => countOfText? s.toList
  | _ => none

-- A finite number in a text, with blanks around it.
def limitOfText? (cs : List Char) : Option Binary64 :=
  ((Numeral.read? (Text.trimChars cs)).filter Numeral.isOptionText).bind Numeral.toBinary64?

-- A limit, as a number or as a text.
def bound? (value : Json) : Option Bound :=
  let limit := match value with
    | .num n => some n.toBinary64
    | .str s => limitOfText? s.toList
    | _ => none
  limit.map fun limit => ⟨limit, Text.trim value.display⟩

end Json

end Rulebook
