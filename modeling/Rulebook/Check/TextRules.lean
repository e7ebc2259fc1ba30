import Rulebook.Check.Verdict
import Rulebook.Regex.Pattern

namespace Rulebook

namespace Failure

def notText : Failure := invalid "should be a string" []

def emptyText : Failure := invalid "should not be empty" []

def tooLong (max : Nat) : Failure := invalid "length should smaller than %s" [Text.natText max]

def tooShort (min : Nat) : Failure := invalid "length should bigger than %s" [Text.natText min]

def noMatch (p : Pattern) : Failure := invalid "should match %s" [p.display]

end Failure

-- The text of a value, or why it cannot be used. An empty text that is allowed is
-- none.
def textOf (allowEmpty : Bool) : Json → Except Failure (Option String)
  | .str s =>
      if s.isEmpty then (if allowEmpty then .ok none else .error .emptyText) else .ok (some s)
  | _ => .error .notText

-- What a text must be. Lengths count characters.
structure TextRules where
  allowEmpty : Bool := false
  min : Option Nat := none
  max : Option Nat := none
  format : Option Pattern := none
  -- The message for a text that does not match the format.
  message : Option String := none

namespace TextRules

def formatFailure (rules : TextRules) (p : Pattern) : Failure :=
  match rules.message with
  | some text => .invalid text []
  | none => .noMatch p

-- The first rule that a text breaks.
def broken (rules : TextRules) (text : String) : Option Failure :=
  let tooLong := rules.max.filter (· < text.length)
  let tooShort := rules.min.filter (text.length < ·)
  let noMatch := rules.format.filter (!·.isMatch text)
  (tooLong.map .tooLong).or ((tooShort.map .tooShort).or (noMatch.map rules.formatFailure))

def verdict (rules : TextRules) (value : Json) : Verdict :=
  match textOf rules.allowEmpty value with
  | .error failure => .fail failure
  | .ok none => .pass
  | .ok (some text) => .ofOption (rules.broken text)

end TextRules

end Rulebook
