import Rulebook.Regex.Automaton.Basic

namespace Rulebook

-- No class takes more than this many times the room of a range of characters. With
-- case folded, every character of a range may bring three more.
def CharClass.weight : Bool → CharClass → Nat
  | _, none => 0
  | false, range _ _ => 1
  | true, range first last => 1 + min (3 * (last.toNat - first.toNat + 1)) 3000
  | _, digit | _, space => 5
  | _, word => 20
  | folded, union a b | folded, inter a b => a.weight folded + b.weight folded
  | folded, compl a => a.weight false + if folded then 3001 else 1
  | _, fold a => a.weight true

namespace Regex

namespace Term

def stepBytes : Nat := 128

-- A range of characters has sixteen sequences of four bytes at most.
def rangeBytes : Nat := 2560

mutual

-- An upper bound for the room of the automata of a term, without building them.
def estimate : Term → Nat
  | empty | directive | look _ => stepBytes
  | chars set | bracket set _ => rangeBytes * set.weight false + stepBytes
  | group _ body => body.estimate + stepBytes
  | rep body min max _ =>
      (body.estimate + stepBytes) * ((max.getD min).max 1) + 2 * stepBytes
  | seq items | alt items => estimateAll items + stepBytes

def estimateAll : List Term → Nat
  | [] => 0
  | item :: rest => item.estimate + stepBytes + estimateAll rest

end

-- Whether the expression is small enough to be used. The estimate settles this for
-- nearly all expressions.
def fits (term : Term) : Bool :=
  term.estimate + 4 * stepBytes ≤ Automaton.Room.limit || Automaton.fits (.ofTerm term)

end Term

end Regex

end Rulebook
