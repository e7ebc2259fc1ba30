import Rulebook.Regex.Term

namespace Rulebook.Regex

-- An expression in normal form: no group without a number, no sequence in a sequence
-- or choice in a choice, no two literals side by side, classes as settled ranges of
-- code points, and none of them with a single member.
inductive Normal
  | empty
  | literal (cs : List Char)
  | chars (ranges : List (Nat × Nat))
  | look (condition : Look)
  | group (number : Nat) (body : Normal)
  | rep (body : Normal) (min : Nat) (max : Option Nat) (lazy : Bool)
  | seq (items : List Normal)
  | alt (branches : List Normal)
deriving BEq

namespace Normal

def ofRanges : List (Nat × Nat) → Normal
  | [(first, last)] =>
      if first = last then literal [Char.ofNat first] else chars [(first, last)]
  | ranges => chars ranges

mutual

-- Whether all matches are empty.
def isWidthless : Normal → Bool
  | empty | look _ => true
  | literal _ | chars _ => false
  | group _ body | rep body _ _ _ => body.isWidthless
  | seq items | alt items => allWidthless items

def allWidthless : List Normal → Bool
  | [] => true
  | item :: rest => item.isWidthless && allWidthless rest

end

-- A repetition. A second round of what has no width changes nothing.
def repeated (body : Normal) (min : Nat) (max : Option Nat) (lazy : Bool) : Normal :=
  let (min, max) :=
    if body.isWidthless then (min.min 1, some ((max.getD 1).min 1)) else (min, max)
  if max = some 0 then empty
  else if min = 1 ∧ max = some 1 then body
  else rep body min max lazy

def parts : Normal → List Normal
  | empty => []
  | seq items => items
  | e => [e]

def mergeLiterals (items : List Normal) : List Normal :=
  items.foldr (fun item rest =>
    match item, rest with
    | literal cs, literal ds :: rest => literal (cs ++ ds) :: rest
    | item, rest => item :: rest) []

def concat (items : List Normal) : Normal :=
  match mergeLiterals (items.flatMap parts) with
  | [] => empty
  | [item] => item
  | items => seq items

def branches : Normal → List Normal
  | alt branches => branches
  | e => [e]

def singleChar? : Normal → Option (Nat × Nat)
  | literal [c] => some (c.toNat, c.toNat)
  | _ => none

def ranges? : Normal → Option (List (Nat × Nat))
  | chars ranges => some ranges
  | _ => none

-- A choice between characters only, or between classes only, is a class.
def union? (branches : List Normal) : Option Normal :=
  match branches.mapM singleChar? with
  | some ranges => some (ofRanges (Text.settleRanges ranges))
  | none => (branches.mapM ranges?).map fun sets => ofRanges (Text.settleRanges sets.flatten)

def items? : Normal → Option (List Normal)
  | seq items => some items
  | _ => none

def commonPart : List Normal → List Normal → List Normal
  | a :: as, b :: bs => if a == b then a :: commonPart as bs else []
  | _, _ => []

-- What all branches begin with, and their rests. All of them have to be sequences.
def commonStart? (branches : List Normal) : Option (List Normal × List Normal) :=
  match branches.mapM items? with
  | some (first :: rest) =>
      let start := rest.foldl commonPart first
      if start.isEmpty then none
      else some (start, (first :: rest).map fun items => concat (items.drop start.length))
  | _ => none

-- A choice as such, when what the branches share has been taken out.
def choice (bs : List Normal) : Normal :=
  match bs.flatMap branches with
  | [branch] => branch
  | bs => (union? bs).getD (alt bs)

def choose (bs : List Normal) : Normal :=
  match choice bs with
  | alt bs =>
      match commonStart? bs with
      | some (start, rests) => concat (start ++ [choice rests])
      | none => alt bs
  | e => e

mutual

def ofTerm : Term → Normal
  | .empty | .directive => empty
  | .chars set | .bracket set _ => ofRanges (Text.trimSurrogates set.ranges)
  | .look condition => look condition
  | .group none body => ofTerm body
  | .group (some number) body => group number (ofTerm body)
  | .rep body min max lazy => repeated (ofTerm body) min max lazy
  | .seq items => concat (ofTerms items)
  | .alt branches => choose (ofTerms branches)

def ofTerms : List Term → List Normal
  | [] => []
  | term :: rest => ofTerm term :: ofTerms rest

end

end Normal

end Rulebook.Regex
