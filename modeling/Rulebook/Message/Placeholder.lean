namespace Rulebook.Placeholder

-- Puts the text of a name in place of the name in braces. Names without a text,
-- and a brace that is never closed, stay as they are. The first argument holds, in
-- reverse, what has been read since an open brace.
def fillChars (lookup : String → Option String) : Option (List Char) → List Char → List Char
  | none, [] => []
  | none, c :: cs =>
      if c = '{' then fillChars lookup (some []) cs else c :: fillChars lookup none cs
  | some read, [] => '{' :: read.reverse
  | some read, c :: cs =>
      if c = '}' then
        (match lookup (String.ofList read.reverse) with
          | some text => text.toList
          | none => '{' :: read.reverse ++ ['}']) ++ fillChars lookup none cs
      else fillChars lookup (some (c :: read)) cs

def fill (lookup : String → Option String) (template : String) : String :=
  String.ofList (fillChars lookup none template.toList)

end Rulebook.Placeholder
