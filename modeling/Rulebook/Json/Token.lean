namespace Rulebook.Json

-- The tokens of a text. Words and strings are kept as they are written.
inductive Token
  | openArr
  | closeArr
  | openObj
  | closeObj
  | comma
  | colon
  | word (cs : List Char)
  | quoted (body : List Char)
deriving DecidableEq

namespace Token

-- What has been read of the token that is being read, in reverse.
inductive Partial
  | gap
  | word (read : List Char)
  | quoted (read : List Char)
  -- Inside a string, directly after a backslash.
  | escape (read : List Char)

def isSpace (c : Char) : Bool :=
  c == ' ' || c == '\t' || c == '\n' || c == '\r'

def punctuation : Char → Option Token
  | '[' => some openArr
  | ']' => some closeArr
  | '{' => some openObj
  | '}' => some closeObj
  | ',' => some comma
  | ':' => some colon
  | _ => none

-- A word is a run of characters that are no space, no punctuation and no quote.
def endsWord (c : Char) : Bool :=
  isSpace c || c == '"' || (punctuation c).isSome

-- Between two tokens.
def start (c : Char) : Partial × List Token :=
  if isSpace c then (.gap, [])
  else if c == '"' then (.quoted [], [])
  else
    match punctuation c with
    | some token => (.gap, [token])
    | none => (.word [c], [])

-- The next state and the tokens that the character completes.
def step : Partial → Char → Partial × List Token
  | .gap, c => start c
  | .word read, c =>
      if endsWord c then ((start c).1, word read.reverse :: (start c).2)
      else (.word (c :: read), [])
  | .quoted read, c =>
      if c == '"' then (.gap, [quoted read.reverse])
      else if c == '\\' then (.escape (c :: read), [])
      else (.quoted (c :: read), [])
  | .escape read, c => (.quoted (c :: read), [])

def finish : Partial → Option (List Token)
  | .gap => some []
  | .word read => some [word read.reverse]
  | .quoted _ | .escape _ => none

-- The tokens of a text, unless it ends inside a string.
def scan : Partial → List Char → Option (List Token)
  | state, [] => finish state
  | state, c :: cs => (scan (step state c).1 cs).map ((step state c).2 ++ ·)

end Token

end Rulebook.Json
