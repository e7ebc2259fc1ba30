import Rulebook.Json.Token

namespace Rulebook.Json

-- A document as it is written. Words, strings and names are not read yet, and an object has
-- all its members, also those of one name.
inductive Raw
  | word (cs : List Char)
  | quoted (body : List Char)
  | arr (items : List Raw)
  | obj (members : List (List Char × Raw))

namespace Raw

-- How many arrays and objects are open at once.
mutual

def depth : Raw → Nat
  | word _ | quoted _ => 0
  | arr items => depthItems items + 1
  | obj members => depthMembers members + 1

def depthItems : List Raw → Nat
  | [] => 0
  | item :: rest => max item.depth (depthItems rest)

def depthMembers : List (List Char × Raw) → Nat
  | [] => 0
  | (_, value) :: rest => max value.depth (depthMembers rest)

end

-- An array or object that is open, with what it has so far in reverse.
inductive Frame
  | arr (items : List Raw)
  | obj (members : List (List Char × Raw))
  -- An object whose last name still lacks its value.
  | named (members : List (List Char × Raw)) (name : List Char)

-- What may come next.
inductive Expect
  -- A value.
  | value
  -- A value or the end of the array, directly after its start.
  | firstItem
  -- A name or the end of the object, directly after its start.
  | firstName
  | name
  | colon
  -- A comma or the end of the innermost array or object.
  | more
  | done (value : Raw)

structure State where
  frames : List Frame
  expect : Expect

-- A finished value goes into the innermost array or object.
def close (value : Raw) : List Frame → Option State
  | [] => some ⟨[], .done value⟩
  | .arr items :: frames => some ⟨.arr (value :: items) :: frames, .more⟩
  | .named members name :: frames => some ⟨.obj ((name, value) :: members) :: frames, .more⟩
  | .obj _ :: _ => none

def startValue (frames : List Frame) : Token → Option State
  | .word cs => close (word cs) frames
  | .quoted body => close (quoted body) frames
  | .openArr => some ⟨.arr [] :: frames, .firstItem⟩
  | .openObj => some ⟨.obj [] :: frames, .firstName⟩
  | _ => none

def step (state : State) (token : Token) : Option State :=
  match state.expect, state.frames, token with
  | .value, frames, token => startValue frames token
  | .firstItem, .arr items :: frames, .closeArr => close (arr items.reverse) frames
  | .firstItem, frames, token => startValue frames token
  | .firstName, .obj members :: frames, .closeObj => close (obj members.reverse) frames
  | .firstName, .obj members :: frames, .quoted name =>
      some ⟨.named members name :: frames, .colon⟩
  | .name, .obj members :: frames, .quoted name => some ⟨.named members name :: frames, .colon⟩
  | .colon, frames, .colon => some ⟨frames, .value⟩
  | .more, .arr items :: frames, .comma => some ⟨.arr items :: frames, .value⟩
  | .more, .obj members :: frames, .comma => some ⟨.obj members :: frames, .name⟩
  | .more, .arr items :: frames, .closeArr => close (arr items.reverse) frames
  | .more, .obj members :: frames, .closeObj => close (obj members.reverse) frames
  | _, _, _ => none

def run (tokens : List Token) : Option Raw :=
  match tokens.foldlM step ⟨[], .value⟩ with
  | some ⟨[], .done value⟩ => some value
  | _ => none

-- Takes a text apart that has one value, with space wherever it may stand.
def parse? (text : String) : Option Raw :=
  (Token.scan .gap text.toList).bind run

end Raw

end Rulebook.Json
