import Rulebook.Regex.Automaton.Room

namespace Rulebook.Regex.Automaton

-- A choice between literals is a tree that follows their bytes.
namespace Tree

-- Cuts the words where one of them ends, so that an earlier word is preferred. An end
-- is not told again as long as nothing goes on after it.
def chunks (chunk : List (List Nat)) (branched ended : Bool) :
    List (List Nat) → List (List (List Nat))
  | [] => [chunk.reverse]
  | [] :: words =>
      if ended && !branched then chunks chunk branched ended words
      else chunk.reverse :: chunks [] branched true words
  | word :: words => chunks (word :: chunk) true ended words

def heads (chunk : List (List Nat)) : List Nat :=
  (chunk.filterMap List.head?).eraseDups

def tails (head : Nat) (chunk : List (List Nat)) : List (List Nat) :=
  chunk.filterMap fun
    | b :: word => if b = head then some word else none
    | [] => none

def chunkRoom (chunk : List (List Nat)) : Room :=
  match heads chunk with
  | [] => ⟨0, 0⟩
  | [_] => ⟨1, 0⟩
  | heads => ⟨1, Room.arcBytes * heads.length⟩

-- The room of a tree of words up to a depth.
def room : Nat → List (List Nat) → Room
  | 0, _ => ⟨0, 0⟩
  | depth + 1, words =>
      let chunks := chunks [] false false words
      let choices := (chunks.filter (!·.isEmpty)).length + chunks.length - 1
      let below := chunks.flatMap fun chunk => (heads chunk).map fun head =>
        let words := tails head chunk
        if words.all List.isEmpty then ⟨0, 0⟩ else room depth words
      (chunks.map chunkRoom ++ below).foldl Room.plus ⟨1, Room.choiceBytes * choices⟩

def build (words : List (List Nat)) (part : Room) : Option Room := do
  let tree := room ((words.map List.length).foldl max 0) words
  part.add (tree.states + 1) tree.held

end Tree

end Rulebook.Regex.Automaton
