import Rulebook.Regex.Escape

namespace Rulebook.Regex

-- Character classes in brackets: unions of characters, ranges, escapes, named and
-- nested classes, combined by && -- and ~~ from left to right.
namespace Bracket

inductive Operator
  | inter
  | diff
  | symmDiff

-- A set with how deeply operators, nested classes and unions are nested in it.
structure Nested where
  set : CharClass
  depth : Nat

-- The items of a union that have been read.
structure Items where
  set : CharClass
  count : Nat
  depth : Nat

namespace Items

def none : Items :=
  ⟨.none, 0, 0⟩

def push (items : Items) (item : Nested) : Items :=
  ⟨items.set.join item.set, items.count + 1, max items.depth item.depth⟩

def add (items : Items) (set : CharClass) : Items :=
  items.push ⟨set, 0⟩

-- A single item makes no union.
def close (items : Items) : Nested :=
  ⟨items.set, if items.count ≤ 1 then items.depth else items.depth + 1⟩

end Items

inductive Frame
  -- A class that is open, with what the enclosing class has so far.
  | opened (outer : Items) (negated : Bool)
  -- An operator that waits for its right side.
  | operand (operator : Operator) (left : Nested)

-- The classes of two letters such as [:alpha:], as ASCII ranges.
def named (name : List Char) : Option CharClass :=
  let lower := CharClass.range 'a' 'z'
  let upper := CharClass.range 'A' 'Z'
  let digits := CharClass.range '0' '9'
  let alpha := CharClass.union upper lower
  match String.ofList name with
  | "alnum" => some (.union digits alpha)
  | "alpha" => some alpha
  | "ascii" => some (.range '\x00' '\x7f')
  | "blank" => some (.ofChars ['\t', ' '])
  | "cntrl" => some (.union (.range '\x00' '\x1f') (.single '\x7f'))
  | "digit" => some digits
  | "graph" => some (.range '!' '~')
  | "lower" => some lower
  | "print" => some (.range ' ' '~')
  | "punct" =>
      some (.union (.union (.range '!' '/') (.range ':' '@'))
        (.union (.range '[' '\x60') (.range '\x7b' '~')))
  | "space" => some (.union (.range '\t' '\r') (.single ' '))
  | "upper" => some upper
  | "word" => some (.union (.union digits alpha) (.single '_'))
  | "xdigit" => some (.union digits (.union (.range 'A' 'F') (.range 'a' 'f')))
  | _ => none

-- Reads a named class after its bracket. What is no named class may still be a
-- nested one.
def readNamed (flags : Flags) : List Char → Option (CharClass × List Char)
  | ':' :: cs =>
      let (negated, cs) := match cs with
        | '^' :: cs => (true, cs)
        | cs => (false, cs)
      match Text.cut ':' cs with
      | some (name, ']' :: rest) =>
          (named name).map fun set => ((set.foldIf flags.ignoreCase).negateIf negated, rest)
      | _ => none
  | _ => none

def readItem (flags : Flags) : List Char → Option (Escape × List Char)
  | [] => none
  | '\\' :: cs => Escape.read? flags cs
  | c :: cs => some (.char c, cs)

def itemSet : Escape → Option CharClass
  | .char c => some (.single c)
  | .set members => some members
  | .look _ => none

-- A single item, or a range if a minus sign follows that is not the last
-- character and not an operator.
def readRange (flags : Flags) (cs : List Char) : Option (CharClass × List Char) := do
  let (first, rest) ← readItem flags cs
  match flags.skip rest with
  | [] => none
  | '-' :: after =>
      match flags.skip after with
      | [] => none
      | c :: cs =>
          if c == ']' || c == '-' then some (← itemSet first, '-' :: after)
          else
            match first, ← readItem flags (c :: cs) with
            | .char first, (.char last, rest) =>
                if first ≤ last then some (.range first last, rest) else none
            | _, _ => none
  | rest => some (← itemSet first, rest)

-- Minus signs at the start stand for themselves.
def openMinus (flags : Flags) : Nat → Items → List Char → Items × List Char
  | fuel + 1, items, '-' :: cs => openMinus flags fuel (items.add (.single '-')) (flags.skip cs)
  | _, items, cs => (items, cs)

-- Reads the start of a class after its bracket. A closing bracket that comes first
-- stands for itself.
def readOpening (flags : Flags) (cs : List Char) : Bool × Items × List Char :=
  let cs := flags.skip cs
  let (negated, cs) := match cs with
    | '^' :: cs => (true, flags.skip cs)
    | cs => (false, cs)
  let (items, cs) := openMinus flags cs.length .none cs
  match items.count, cs with
  | 0, ']' :: rest => (negated, items.add (.single ']'), flags.skip rest)
  | _, cs => (negated, items, cs)

def combine (flags : Flags) (operator : Operator) (left right : CharClass) : CharClass :=
  let left := left.foldIf flags.ignoreCase
  let right := right.foldIf flags.ignoreCase
  match operator with
  | .inter => left.inter right
  | .diff => left.diff right
  | .symmDiff => left.symmDiff right

-- The items so far, with the operator that waited for them.
def settle (flags : Flags) (items : Items) : List Frame → Nested × List Frame
  | .operand operator left :: frames =>
      let right := items.close
      (⟨combine flags operator left.set right.set, max left.depth right.depth + 1⟩, frames)
  | frames => (items.close, frames)

def operator? : List Char → Option (Operator × List Char)
  | '&' :: '&' :: cs => some (.inter, cs)
  | '-' :: '-' :: cs => some (.diff, cs)
  | '~' :: '~' :: cs => some (.symmDiff, cs)
  | _ => none

-- Reads the rest of the innermost open class. Every round takes a character.
def readRest (flags : Flags) : Nat → List Frame → Items → List Char →
    Option (Nested × List Char)
  | 0, _, _, _ => none
  | fuel + 1, frames, items, cs =>
      match flags.skip cs with
      | [] => none
      | '[' :: cs =>
          match readNamed flags cs with
          | some (members, rest) => readRest flags fuel frames (items.add members) rest
          | none =>
              let (negated, first, rest) := readOpening flags cs
              readRest flags fuel (.opened items negated :: frames) first rest
      | ']' :: rest =>
          match settle flags items frames with
          | (inside, .opened outer negated :: frames) =>
              let set := (inside.set.foldIf flags.ignoreCase).negateIf negated
              if frames.isEmpty then some (⟨set, inside.depth⟩, rest)
              else readRest flags fuel frames (outer.push ⟨set, inside.depth + 1⟩) rest
          | _ => none
      | cs =>
          match operator? cs with
          | some (operator, rest) =>
              let (left, frames) := settle flags items frames
              readRest flags fuel (.operand operator left :: frames) .none rest
          | none => do
              let (members, rest) ← readRange flags cs
              readRest flags fuel frames (items.add members) rest

-- Reads a class after its first bracket.
def read? (flags : Flags) (cs : List Char) : Option (Nested × List Char) :=
  let (negated, first, rest) := readOpening flags cs
  readRest flags (rest.length + 1) [.opened .none negated] first rest

end Bracket

end Rulebook.Regex
