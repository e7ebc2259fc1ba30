import Rulebook.Json.Quoted
import Rulebook.Json.Raw
import Rulebook.Json.Reader

namespace Rulebook.Json

namespace Raw

def scalar? (cs : List Char) : Option Json :=
  if cs = "null".toList then some null
  else if cs = "true".toList then some (bool true)
  else if cs = "false".toList then some (bool false)
  else (Number.read? cs).map num

-- The data of a document. A member of a name that is there already takes its place.
mutual

def toJson? : Raw → Option Json
  | word cs => scalar? cs
  | quoted body => (unquote? body).map str
  | arr items => (items? items).map Json.arr
  | obj members => (members? members).map fun members => Json.obj (Members.ofList members)

def items? : List Raw → Option (List Json)
  | [] => some []
  | item :: rest => do
      let item ← item.toJson?
      (items? rest).map (item :: ·)

def members? : List (List Char × Raw) → Option (List (String × Json))
  | [] => some []
  | (name, value) :: rest => do
      let name ← unquote? name
      let value ← value.toJson?
      (members? rest).map ((name, value) :: ·)

end

end Raw

-- The greatest depth of a document.
def maxDepth : Nat := 127

-- Reads a document, which must not be nested too deeply.
def read? (s : String) : Option Json :=
  ((Raw.parse? s).filter fun raw => raw.depth ≤ maxDepth).bind Raw.toJson?

-- The reader that programs run with.
scoped instance reader : JsonReader := ⟨read?⟩

end Rulebook.Json
