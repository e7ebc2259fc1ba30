namespace Rulebook.Text

-- The pieces between the separators. There is one piece more than there are
-- separators, so the empty text has one empty piece.
def pieces (sep : Char) : List Char → List (List Char)
  | [] => [[]]
  | c :: cs =>
      if c = sep then [] :: pieces sep cs
      else
        match pieces sep cs with
        | [] => [[c]]
        | first :: rest => (c :: first) :: rest

-- The text before and after the first separator.
def cut (sep : Char) : List Char → Option (List Char × List Char)
  | [] => none
  | c :: cs =>
      if c = sep then some ([], cs)
      else (cut sep cs).map fun (before, after) => (c :: before, after)

-- The text before and after the last separator.
def cutLast (sep : Char) (cs : List Char) : Option (List Char × List Char) :=
  (cut sep cs.reverse).map fun (after, before) => (before.reverse, after.reverse)

def joinWith (sep : List Char) : List (List Char) → List Char
  | [] => []
  | [piece] => piece
  | piece :: rest => piece ++ sep ++ joinWith sep rest

end Rulebook.Text
