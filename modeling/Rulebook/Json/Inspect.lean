import Rulebook.Json.Printer
import Rulebook.Text.Blank

namespace Rulebook.Json

inductive Kind
  | null
  | boolean
  | number
  | string
  | array
  | object
deriving DecidableEq

def Kind.name : Kind → String
  | null => "null"
  | boolean => "boolean"
  | number => "number"
  | string => "string"
  | array => "array"
  | object => "object"

def kind : Json → Kind
  | .null => .null
  | .bool _ => .boolean
  | .num _ => .number
  | .str _ => .string
  | .arr _ => .array
  | .obj _ => .object

-- Null, texts of blank characters, and empty arrays and objects.
def isBlank : Json → Bool
  | .null => true
  | .str s => Text.allBlank s
  | .arr items => items.isEmpty
  | .obj members => members.isEmpty
  | .bool _ | .num _ => false

-- The text that checks of texts look at. Only strings and numbers have one.
def scalarText : Json → Option String
  | .str s => some s
  | .num n => some (String.ofList n.plain)
  | _ => none

-- The form of a value in messages: strings without quotes, all else as JSON.
def display : Json → String
  | .str s => s
  | .num n => String.ofList n.plain
  | value => value.compact

def number? : Json → Option Binary64
  | .num n => some n.toBinary64
  | _ => none

-- A number without a fraction.
def isInteger : Json → Bool
  | .num n => n.isInteger
  | _ => false

end Rulebook.Json
