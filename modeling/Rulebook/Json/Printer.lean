import Rulebook.Json.Basic

namespace Rulebook.Json

def escape (c : Char) : List Char :=
  if c == '"' then ['\\', '"']
  else if c == '\\' then ['\\', '\\']
  else if c == '\x08' then ['\\', 'b']
  else if c == '\x0c' then ['\\', 'f']
  else if c == '\n' then ['\\', 'n']
  else if c == '\r' then ['\\', 'r']
  else if c == '\t' then ['\\', 't']
  else if c.toNat < 0x20 then ['\\', 'u'] ++ Text.hexDigits 4 c.toNat
  else [c]

def quote (s : String) : List Char :=
  '"' :: s.toList.flatMap escape ++ ['"']

-- The compact form, without any space.
mutual

def write : Json → List Char
  | null => "null".toList
  | bool true => "true".toList
  | bool false => "false".toList
  | num n => n.write
  | str s => quote s
  | arr items => '[' :: writeItems items ++ [']']
  | obj members => '{' :: writeMembers members ++ ['}']

def writeItems : List Json → List Char
  | [] => []
  | [item] => item.write
  | item :: rest => item.write ++ ',' :: writeItems rest

def writeMembers : List (String × Json) → List Char
  | [] => []
  | [(name, value)] => quote name ++ ':' :: value.write
  | (name, value) :: rest => quote name ++ ':' :: value.write ++ ',' :: writeMembers rest

end

def compact (value : Json) : String :=
  String.ofList value.write

def newline (indent : Nat) : List Char :=
  '\n' :: List.replicate (2 * indent) ' '

-- The form with one item or member on a line. Empty arrays and objects stay on
-- theirs.
mutual

def writePretty (indent : Nat) : Json → List Char
  | null => "null".toList
  | bool true => "true".toList
  | bool false => "false".toList
  | num n => n.write
  | str s => quote s
  | arr [] => ['[', ']']
  | arr items => '[' :: prettyItems (indent + 1) items ++ newline indent ++ [']']
  | obj [] => ['{', '}']
  | obj members => '{' :: prettyMembers (indent + 1) members ++ newline indent ++ ['}']

def prettyItems (indent : Nat) : List Json → List Char
  | [] => []
  | [item] => newline indent ++ writePretty indent item
  | item :: rest => newline indent ++ writePretty indent item ++ ',' :: prettyItems indent rest

def prettyMembers (indent : Nat) : List (String × Json) → List Char
  | [] => []
  | [(name, value)] => newline indent ++ quote name ++ [':', ' '] ++ writePretty indent value
  | (name, value) :: rest =>
      newline indent ++ quote name ++ [':', ' '] ++ writePretty indent value ++
        ',' :: prettyMembers indent rest

end

def pretty (value : Json) : String :=
  String.ofList (value.writePretty 0)

end Rulebook.Json
