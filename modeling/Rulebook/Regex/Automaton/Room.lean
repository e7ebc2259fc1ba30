namespace Rulebook.Regex

-- How much room the byte automaton of an expression takes. The automaton has a state
-- for every step of an expression whose repetitions are written out, and reads
-- texts forward or, to find where matches begin, backward.
namespace Automaton

inductive Direction
  | forward
  | backward

-- The number of states, and the bytes that they hold besides their own.
structure Room where
  states : Nat
  held : Nat

namespace Room

def stateBytes : Nat := 32

-- What a state holds for each of its ranges of bytes, and for each of its choices.
def arcBytes : Nat := 8

def choiceBytes : Nat := 4

def bytes (room : Room) : Nat :=
  stateBytes * room.states + room.held

def limit : Nat := 10 * 1024 * 1024

def plus (a b : Room) : Room :=
  ⟨a.states + b.states, a.held + b.held⟩

-- Room never shrinks, so it can be refused as soon as it is too much.
def add (room : Room) (states held : Nat) : Option Room :=
  let room : Room := ⟨room.states + states, room.held + held⟩
  if room.bytes ≤ limit then some room else none

end Room

-- The room after a part of the automaton. The part ends in a state of choices or not:
-- to go on from such a state is one more choice.
structure Part where
  room : Room
  endsInChoice : Bool

namespace Part

def exit (part : Part) : Nat :=
  if part.endsInChoice then Room.choiceBytes else 0

def add (part : Part) (states held : Nat) : Option Part :=
  (part.room.add states held).map (⟨·, false⟩)

-- Goes on from the end of a part to the next one.
def next (part : Part) (build : Room → Option Part) : Option Part := do
  let after ← build part.room
  let room ← after.room.add 0 part.exit
  some { after with room }

def copies (build : Room → Option Part) : Nat → Part → Option Part
  | 0, part => some part
  | n + 1, part => do copies build n (← part.next build)

-- Rounds that can all be left out together with those after them.
def rounds (build : Room → Option Part) : Nat → Part → Option Part
  | 0, part => some part
  | n + 1, part => do
      let after ← build (← part.room.add 1 (part.exit + 2 * Room.choiceBytes))
      rounds build n after

end Part

end Automaton

end Rulebook.Regex
