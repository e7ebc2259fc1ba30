import Rulebook.Regex.Automaton.Room
import Rulebook.Regex.ByteRange
import Std.Data.HashMap

namespace Rulebook.Regex.Automaton

-- States that are already there can be used again. A table remembers them by a number
-- made of what they hold, and a state displaces an older one of the same number.
abbrev Table (α : Type) := Std.HashMap Nat (α × Nat)

def mix (numbers : List Nat) : UInt64 :=
  numbers.foldl (fun hash n => (hash ^^^ n.toUInt64) * 1099511628211) 14695981039346656037

structure Arc where
  first : Nat
  last : Nat
  target : Nat
deriving DecidableEq

structure Shared (α : Type) where
  room : Room
  table : Table α

-- The state with this content, which may be a new one.
def Shared.intern {α : Type} [BEq α] (shared : Shared α) (content : α) (slot held : Nat) :
    Option (Nat × Shared α) :=
  match shared.table[slot]? with
  | some (other, state) =>
      if other == content then some (state, shared) else fresh
  | none => fresh
where
  fresh := do
    let state := shared.room.states
    let room ← shared.room.add 1 held
    some (state, { room, table := shared.table.insert slot (content, state) })

-- Forward, a sequence shares what it begins with with the one before it. A state is
-- settled when no later sequence can pass through it, and then states with the same arcs
-- are one.
namespace Forward

-- A state on the way of the last sequence: its other arcs in reverse, and the bytes
-- that lead on.
structure Node where
  arcs : List Arc
  bytes : Nat × Nat

def slots : Nat := 10000

def Node.close (node : Node) (target : Nat) : List Arc :=
  ⟨node.bytes.1, node.bytes.2, target⟩ :: node.arcs

def intern (arcs : List Arc) (shared : Shared (List Arc)) : Option (Nat × Shared (List Arc)) :=
  let hash := mix (arcs.reverse.flatMap fun arc => [arc.first, arc.last, arc.target])
  shared.intern arcs (hash.toNat % slots) (Room.arcBytes * arcs.length)

def settle (target : Nat) : List Node → Shared (List Arc) → Option (Nat × Shared (List Arc))
  | [], shared => some (target, shared)
  | node :: rest, shared => do
      let (target, shared) ← settle target rest shared
      intern (node.close target) shared

def insert (target : Nat) : List (Nat × Nat) → List Node → Shared (List Arc) →
    Option (List Node × Shared (List Arc))
  | bytes :: more, node :: rest, shared =>
      if node.bytes = bytes then do
        let (rest, shared) ← insert target more rest shared
        some (node :: rest, shared)
      else do
        let (target, shared) ← settle target rest shared
        some (⟨node.close target, bytes⟩ :: more.map (⟨[], ·⟩), shared)
  | sequence, _, shared => some (sequence.map (⟨[], ·⟩), shared)

def build (sequences : List (List (Nat × Nat))) (room : Room) : Option Room := do
  let target := room.states
  let room ← room.add 1 0
  let (nodes, shared) ← sequences.foldlM (fun (nodes, shared) sequence =>
    insert target sequence nodes shared) ([], ⟨room, {}⟩)
  let (_, shared) ← settle target nodes shared
  some shared.room

end Forward

-- Backward, the last byte comes first and one state chooses between all sequences. They
-- share the states for what they begin with.
namespace Backward

def slots : Nat := 1000

def insert (target : Nat) (shared : Shared Arc) (sequence : List (Nat × Nat)) :
    Option (Shared Arc) := do
  let (_, shared) ← sequence.foldlM (fun (target, shared) bytes =>
    let hash := mix [target, bytes.1, bytes.2]
    Shared.intern shared ⟨bytes.1, bytes.2, target⟩ (hash.toNat % slots) 0) (target, shared)
  some { shared with room := ← shared.room.add 0 Room.choiceBytes }

def build (sequences : List (List (Nat × Nat))) (room : Room) : Option Room := do
  let target := room.states + 1
  let room ← room.add 2 0
  let shared ← sequences.foldlM (insert target) ⟨room, {}⟩
  some shared.room

end Backward

-- A class of ASCII characters is one state with an end.
def buildClass (direction : Direction) (ranges : List (Nat × Nat)) (room : Room) :
    Option Room :=
  if ranges.all fun range => range.2 < 0x80 then
    room.add 2 (Room.arcBytes * ranges.length)
  else
    let sequences := ranges.flatMap ByteRange.sequences
    match direction with
    | .forward => Forward.build sequences room
    | .backward => Backward.build sequences room

end Rulebook.Regex.Automaton
