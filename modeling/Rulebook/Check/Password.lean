import Rulebook.Check.TextRules

namespace Rulebook

-- What the characters of a password must be: a count of allowed ones, or a match.
inductive Charset
  | standard (min max : Nat)
  | custom (format : Pattern)

structure Password where
  charset : Charset
  -- The field of the record that must hold the same value.
  compare : Option String

namespace Password

def symbols : String := "&*;+$,?#[]%"

def isAllowed (c : Char) : Bool :=
  c.isAlphanum || symbols.toList.contains c

def brokenCharset (text : String) : Charset → Option Failure
  | .custom format => if format.isMatch text then none else some (.noMatch format)
  | .standard min max =>
      if max < text.length then some (.tooLong max)
      else if text.length < min then some (.tooShort min)
      else if text.toList.all isAllowed then none
      else some (.invalid ("should only contain letters, digits and " ++ symbols) [])

def brokenCompare (p : Password) (value record : Json) : Option Failure :=
  match p.compare with
  | none => none
  | some name =>
      if (record.get? name).any (·.same value) then none
      else some (.invalid "should equal to %s" [name])

def verdict (p : Password) (value : Json) (context : Context) : Verdict :=
  match textOf false value with
  | .error failure => .fail failure
  | .ok text =>
      .ofOption ((brokenCharset (text.getD "") p.charset).or
        (p.brokenCompare value context.record))

end Password

end Rulebook
