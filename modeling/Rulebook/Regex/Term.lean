import Rulebook.Regex.Basic

namespace Rulebook.Regex

-- An expression as it is written, with its groups and sequences.
inductive Term
  | empty
  -- Flags for the rest of the group. They match nothing but have a place.
  | directive
  | chars (set : CharClass)
  -- A class in brackets, with how deeply others are nested in it.
  | bracket (set : CharClass) (depth : Nat)
  | look (condition : Look)
  -- A group that is recorded has a number.
  | group (number : Option Nat) (body : Term)
  | rep (body : Term) (min : Nat) (max : Option Nat) (lazy : Bool)
  | seq (items : List Term)
  | alt (branches : List Term)

namespace Term

-- What is written side by side. A single item needs no sequence around it.
def ofItems : List Term → Term
  | [] => empty
  | [item] => item
  | items => seq items

def ofBranches : List Term → Term
  | [] => empty
  | [branch] => branch
  | branches => alt branches

mutual

-- What the term matches.
def regex : Term → Regex
  | empty | directive => .empty
  | chars set | bracket set _ => .chars set
  | look condition => .look condition
  | group _ body => body.regex
  | rep body min max _ => .rep body.regex min max
  | seq items => regexSeq items
  | alt branches => regexAlt branches

def regexSeq : List Term → Regex
  | [] => .empty
  | item :: rest => item.regex.andThen (regexSeq rest)

def regexAlt : List Term → Regex
  | [] => .chars .none
  | [branch] => branch.regex
  | branch :: rest => .alt branch.regex (regexAlt rest)

end

mutual

-- How deeply groups, repetitions, classes, sequences and choices are nested.
def depth : Term → Nat
  | empty | directive | chars _ | look _ => 0
  | bracket _ depth => depth + 1
  | group _ body | rep body _ _ _ => body.depth + 1
  | seq items | alt items => depthAll items + 1

def depthAll : List Term → Nat
  | [] => 0
  | item :: rest => max item.depth (depthAll rest)

end

end Term

end Rulebook.Regex
