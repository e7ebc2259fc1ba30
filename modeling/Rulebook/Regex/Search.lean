import Rulebook.Regex.Basic
import Std.Data.HashSet

namespace Rulebook.Regex

-- Whether the expression matches nothing at all between two characters.
def nullable (before after : Option Char) : Regex → Bool
  | empty => true
  | chars _ => false
  | look condition => condition.holds before after
  | seq a b => a.nullable before after && b.nullable before after
  | alt a b => a.nullable before after || b.nullable before after
  | rep body min _ => min == 0 || body.nullable before after

-- What is left to match after the character. A round of a repetition that matches
-- nothing here is free, so then no round is owed after this one.
def step (before : Option Char) (c : Char) : Regex → List Regex
  | empty => []
  | chars set => if set.mem c then [empty] else []
  | look _ => []
  | seq a b =>
      (a.step before c).map (·.andThen b) ++
        if a.nullable before (some c) then b.step before c else []
  | alt a b => a.step before c ++ b.step before c
  | rep body min max =>
      if max = some 0 then []
      else
        let owed := if body.nullable before (some c) then 0 else min - 1
        (body.step before c).map (·.andThen (rep body owed (max.map (· - 1))))

def fewExpressions : Nat := 32

-- The same expressions without repeats. It is worth a table only for many of them.
def distinct (es : List Regex) : List Regex :=
  if es.length ≤ fewExpressions then es.eraseDups else (Std.HashSet.ofList es).toList

-- Whether a match that has begun, or one that begins here or later, ends in the
-- text. The expressions are what is left of those that have begun.
def search (e : Regex) (before : Option Char) (begun : List Regex) : List Char → Bool
  | [] => (e :: begun).any (nullable before none)
  | c :: cs =>
      (e :: begun).any (nullable before (some c)) ||
        search e (some c) (distinct ((e :: begun).flatMap (step before c))) cs

-- Whether some part of the text matches.
def isMatch (e : Regex) (text : List Char) : Bool :=
  e.search none [] text

end Rulebook.Regex
