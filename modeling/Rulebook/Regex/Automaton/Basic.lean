import Rulebook.Regex.Automaton.ByteClass
import Rulebook.Regex.Automaton.LiteralTree
import Rulebook.Regex.Normal.Extent

namespace Rulebook.Regex.Automaton

def literalBytes (cs : List Char) : List Nat :=
  cs.flatMap fun c => (String.utf8EncodeChar c).map UInt8.toNat

def word? (direction : Direction) : Normal → Option (List Nat)
  | .literal cs =>
      match direction with
      | .forward => some (literalBytes cs)
      | .backward => some (literalBytes cs).reverse
  | _ => none

def buildRep (build : Room → Option Part) (consumes : Bool) (min : Nat) (max : Option Nat)
    (room : Room) : Option Part :=
  let choice := Room.choiceBytes
  match min, max with
  | 0, some 1 => do
      let body ← build (← room.add 1 (2 * choice))
      body.add 1 body.exit
  | 0, none =>
      if consumes then do
        let body ← build (← room.add 1 choice)
        some ⟨← body.room.add 0 body.exit, true⟩
      else do
        let body ← build room
        body.add 3 (body.exit + 4 * choice)
  | min, none => do
      let body ← Part.copies build min ⟨room, false⟩
      some ⟨← body.room.add 1 (body.exit + choice), true⟩
  | min, some max => do
      let start : Part := ⟨room, false⟩
      let least ← if min = 0 then start.add 1 0 else Part.copies build min start
      if min = max then some least
      else
        let most ← Part.rounds build (max - min) ⟨← least.room.add 1 0, least.endsInChoice⟩
        most.add 0 most.exit

mutual

-- Builds an expression after what has been built.
def build (direction : Direction) : Normal → Room → Option Part
  | .empty, room | .look _, room => (room.add 1 0).map (⟨·, false⟩)
  | .literal cs, room => (room.add (literalBytes cs).length 0).map (⟨·, false⟩)
  | .chars ranges, room => (buildClass direction ranges room).map (⟨·, false⟩)
  | .group _ body, room =>
      match direction with
      | .forward => do
          let body ← build direction body (← room.add 1 0)
          body.add 1 body.exit
      | .backward => build direction body room
  | .rep body min max _, room =>
      buildRep (build direction body) body.consumes min max room
  | .seq items, room => buildSeq direction items ⟨room, false⟩
  | .alt branches, room =>
      match branches.mapM (word? direction) with
      | some words => (Tree.build words room).map (⟨·, false⟩)
      | none => buildAlt direction branches 0 room

def buildSeq (direction : Direction) : List Normal → Part → Option Part
  | [], part => some part
  | item :: rest, part =>
      match direction with
      | .forward => do buildSeq direction rest (← part.next (build direction item))
      | .backward => do (← buildSeq direction rest part).next (build direction item)

-- The states where a choice begins and ends come after its second branch.
def buildAlt (direction : Direction) : List Normal → Nat → Room → Option Part
  | [], _, room => some ⟨room, false⟩
  | branch :: rest, place, room => do
      let part ← build direction branch room
      let ends := if place = 1 then 2 else 0
      let room ← part.room.add ends (part.exit + Room.choiceBytes)
      buildAlt direction rest (place + 1) room

end

-- Unless a match can begin in one place only, three states go there. Forward, the
-- bounds of a match are recorded, as those of a group are.
def room? (direction : Direction) (e : Normal) : Option Room := do
  let anchored := match direction with
    | .forward => e.beginsAt .textStart
    | .backward => e.endsAt .textEnd
  let start ←
    if anchored then Room.add ⟨0, 0⟩ 1 0
    else Room.add ⟨0, 0⟩ 3 (Room.arcBytes + 2 * Room.choiceBytes)
  match direction with
  | .forward =>
      let body ← build direction e (← start.add 1 0)
      body.room.add 2 body.exit
  | .backward =>
      let body ← build direction e start
      body.room.add 1 body.exit

def isLiteral : Normal → Bool
  | .literal _ => true
  | _ => false

-- So many literals are searched for without an automaton.
def manyLiterals : Nat := 3000

def isDictionary : Normal → Bool
  | .alt branches => manyLiterals ≤ branches.length && branches.all isLiteral
  | _ => false

-- Whether both automata of an expression keep to the limit.
def fits (e : Normal) : Bool :=
  isDictionary e || ((room? .forward e).isSome && (room? .backward e).isSome)

end Rulebook.Regex.Automaton
