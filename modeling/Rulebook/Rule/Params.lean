import Rulebook.Json.Basic
import Rulebook.Text.Blank
import Rulebook.Text.Split

namespace Rulebook

-- How the text after the colon of a pipe rule becomes options.
inductive Params
  | none
  -- The items between commas, one for each name.
  | positional (names : List String)
  -- All items between commas as one list.
  | list (name : String)
  -- The text as it is.
  | raw (name : String)
deriving DecidableEq

namespace Params

def items (text : List Char) : List Json :=
  (Text.pieces ',' text).map fun item => .text (Text.trimChars item)

def bind (params : Params) (text : String) : List (String × Json) :=
  let text := Text.trimChars text.toList
  if text.isEmpty then []
  else
    match params with
    | none => []
    | positional names => Members.ofList (names.zip (items text))
    | list name => [(name, .arr (items text))]
    | raw name => [(name, .text text)]

end Params

end Rulebook
