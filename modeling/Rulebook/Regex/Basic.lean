import Rulebook.Regex.CharClass

namespace Rulebook

namespace Regex

-- A condition on the characters before and after a position.
inductive Look
  | textStart
  | textEnd
  | lineStart
  | lineEnd
  | wordBoundary
  | notWordBoundary
  | wordStart
  | wordEnd
  | wordStartHalf
  | wordEndHalf
deriving DecidableEq, Hashable

def isWordAt (c : Option Char) : Bool :=
  c.any Text.isWord

def Look.holds (before after : Option Char) : Look → Bool
  | textStart => before.isNone
  | textEnd => after.isNone
  | lineStart => before.isNone || before == some '\n'
  | lineEnd => after.isNone || after == some '\n'
  | wordBoundary => isWordAt before != isWordAt after
  | notWordBoundary => isWordAt before == isWordAt after
  | wordStart => !isWordAt before && isWordAt after
  | wordEnd => isWordAt before && !isWordAt after
  | wordStartHalf => !isWordAt before
  | wordEndHalf => !isWordAt after

end Regex

-- Regular expressions. Whether a text has a match does not depend on the order of
-- alternatives or on how greedy a repetition is, so neither is kept.
inductive Regex
  | empty
  | chars (set : CharClass)
  | look (condition : Regex.Look)
  | seq (a b : Regex)
  | alt (a b : Regex)
  | rep (body : Regex) (min : Nat) (max : Option Nat)
deriving DecidableEq, Hashable

namespace Regex

def char (c : Char) : Regex :=
  chars (.single c)

def literal (s : List Char) : Regex :=
  s.foldr (fun c rest => seq (char c) rest) empty

def optional (e : Regex) : Regex :=
  rep e 0 (some 1)

def star (e : Regex) : Regex :=
  rep e 0 none

def plus (e : Regex) : Regex :=
  rep e 1 none

def times (n : Nat) (e : Regex) : Regex :=
  rep e n (some n)

-- One expression after another. The empty one leaves no trace.
def andThen : Regex → Regex → Regex
  | empty, b => b
  | a, empty => a
  | a, b => seq a b

def all : List Regex → Regex
  | [] => empty
  | [e] => e
  | e :: rest => seq e (all rest)

def any : List Regex → Regex
  | [] => chars .none
  | [e] => e
  | e :: rest => alt e (any rest)

-- An expression that must match the whole text.
def whole (e : Regex) : Regex :=
  all [look .textStart, e, look .textEnd]

end Regex

end Rulebook
