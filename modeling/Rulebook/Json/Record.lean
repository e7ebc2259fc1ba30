import Rulebook.Json.Quoted
import Rulebook.Json.Raw
import Rulebook.Number.Scientific

namespace Rulebook.Json.Raw

-- The words of the grammar. A number may be of any size.
def isScalar (cs : List Char) : Bool :=
  cs = "null".toList || cs = "true".toList || cs = "false".toList ||
    (Numeral.read? cs).any Numeral.isJson

-- What may be skipped: it follows the grammar, and is not read any further.
mutual

def isJson : Raw → Bool
  | word cs => isScalar cs
  | quoted body => (Piece.readAll? body).isSome
  | arr items => areJson items
  | obj members => areMembers members

def areJson : List Raw → Bool
  | [] => true
  | item :: rest => item.isJson && areJson rest

def areMembers : List (List Char × Raw) → Bool
  | [] => true
  | (name, value) :: rest =>
      (Piece.readAll? name).isSome && value.isJson && areMembers rest

end

def string? : Raw → Option String
  | quoted body => unquote? body
  | _ => none

-- The value of a name that is there once.
def only? (members : List (String × Raw)) (name : String) : Option Raw :=
  match members.filter (·.1 == name) with
  | [(_, value)] => some value
  | _ => none

-- The values of the fields of a record: in order in a list, or by name in an object. All names
-- are read, and the values of names that are no fields are skipped.
def fields? (names : List String) : Raw → Option (List Raw)
  | arr items => if items.length = names.length then some items else none
  | obj members => do
      let entries ← members.mapM fun member => (unquote? member.1).map (·, member.2)
      if entries.all fun entry => names.contains entry.1 || entry.2.isJson then
        names.mapM (only? entries)
      else none
  | _ => none

end Rulebook.Json.Raw
