import Rulebook.Regex.Normal.Basic

namespace Rulebook.Regex

namespace Normal

mutual

-- The least length of a match in characters, unless nothing matches.
def leastLength : Normal → Option Nat
  | empty | look _ => some 0
  | literal cs => some cs.length
  | chars ranges => if ranges.isEmpty then none else some 1
  | group _ body => body.leastLength
  | rep body min _ _ => body.leastLength.map (min * ·)
  | seq items => leastSum items
  | alt branches => leastOf branches

def leastSum : List Normal → Option Nat
  | [] => some 0
  | item :: rest =>
      match item.leastLength, leastSum rest with
      | some a, some b => some (a + b)
      | _, _ => none

def leastOf : List Normal → Option Nat
  | [] => none
  | [branch] => branch.leastLength
  | branch :: rest =>
      match branch.leastLength, leastOf rest with
      | some a, some b => some (min a b)
      | _, _ => none

end

-- Whether a match certainly takes a character.
def consumes (e : Normal) : Bool :=
  e.leastLength.any (0 < ·)

mutual

-- Whether the condition is met wherever a match begins.
def beginsAt (condition : Look) : Normal → Bool
  | look other => other == condition
  | group _ body => body.beginsAt condition
  | rep body min _ _ => 0 < min && body.beginsAt condition
  | seq items => someBeginsAt condition items
  | alt branches => allBeginAt condition branches
  | _ => false

def someBeginsAt (condition : Look) : List Normal → Bool
  | [] => false
  | item :: rest =>
      item.beginsAt condition || (item.isWidthless && someBeginsAt condition rest)

def allBeginAt (condition : Look) : List Normal → Bool
  | [] => true
  | branch :: rest => branch.beginsAt condition && allBeginAt condition rest

end

mutual

-- Whether the condition is met wherever a match ends.
def endsAt (condition : Look) : Normal → Bool
  | look other => other == condition
  | group _ body => body.endsAt condition
  | rep body min _ _ => 0 < min && body.endsAt condition
  | seq items => someEndsAt condition items
  | alt branches => allEndAt condition branches
  | _ => false

def someEndsAt (condition : Look) : List Normal → Bool
  | [] => false
  | item :: rest =>
      someEndsAt condition rest || (allWidthless rest && item.endsAt condition)

def allEndAt (condition : Look) : List Normal → Bool
  | [] => true
  | branch :: rest => branch.endsAt condition && allEndAt condition rest

end

end Normal

end Rulebook.Regex
