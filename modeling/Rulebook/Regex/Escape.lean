import Rulebook.Regex.Basic
import Rulebook.Regex.Flags
import Rulebook.Text.Numeral
import Rulebook.Text.Split

namespace Rulebook.Regex

-- What a backslash and the characters after it stand for.
inductive Escape
  | char (c : Char)
  | set (members : CharClass)
  | look (condition : Look)

namespace Escape

-- No escape names a surrogate or a number beyond the last code point.
def ofCode (n : Nat) : Option Escape :=
  if n < 0xD800 ∨ (0xE000 ≤ n ∧ n < 0x110000) then some (char (Char.ofNat n)) else none

def hexFixed (flags : Flags) : Nat → Nat → List Char → Option (Nat × List Char)
  | 0, value, cs => some (value, cs)
  | count + 1, value, cs =>
      match flags.skip cs with
      | c :: rest => (Text.hexValue c).bind fun d => hexFixed flags count (16 * value + d) rest
      | [] => none

def hexBraced (flags : Flags) (digits : List Char) : Option Nat :=
  let digits := digits.filter fun c => !(flags.verbose && Text.isBlank c)
  if digits.isEmpty then none
  else digits.foldlM (fun value c => (Text.hexValue c).map (16 * value + ·)) 0

-- The code point after \x, \u or \U, with as many digits as the letter asks for or
-- any number of them in braces.
def readHex (flags : Flags) (count : Nat) (cs : List Char) : Option (Escape × List Char) :=
  match flags.skip cs with
  | '{' :: cs => do
      let (digits, rest) ← Text.cut '}' cs
      let code ← ofCode (← hexBraced flags digits)
      some (code, rest)
  | cs => do
      let (value, rest) ← hexFixed flags count 0 cs
      some (← ofCode value, rest)

def boundaryNamed (name : List Char) : Option Look :=
  if name = "start".toList then some .wordStart
  else if name = "end".toList then some .wordEnd
  else if name = "start-half".toList then some .wordStartHalf
  else if name = "end-half".toList then some .wordEndHalf
  else none

-- After \b: a name in braces, unless the brace opens a repetition.
def readBoundary (flags : Flags) : List Char → Option (Escape × List Char)
  | '{' :: cs =>
      match flags.skip cs with
      | [] => none
      | c :: rest =>
          if c.isAlpha || c == '-' then do
            let (name, rest) ← Text.cut '}' (c :: rest)
            let name := name.filter fun c => !(flags.verbose && Text.isBlank c)
            some (look (← boundaryNamed name), rest)
          else some (look .wordBoundary, '{' :: cs)
  | cs => some (look .wordBoundary, cs)

def controlChar : Char → Option Char
  | 'a' => some '\x07'
  | 'f' => some '\x0c'
  | 't' => some '\t'
  | 'n' => some '\n'
  | 'r' => some '\r'
  | 'v' => some '\x0b'
  | _ => none

def classNamed : Char → Option CharClass
  | 'd' => some .digit
  | 'D' => some (.compl .digit)
  | 's' => some .space
  | 'S' => some (.compl .space)
  | 'w' => some .word
  | 'W' => some (.compl .word)
  | _ => none

def lookNamed : Char → Option Look
  | 'A' => some .textStart
  | 'z' => some .textEnd
  | 'B' => some .notWordBoundary
  | '<' => some .wordStart
  | '>' => some .wordEnd
  | _ => none

-- An ASCII character that is neither letter nor digit stands for itself.
def isEscapable (c : Char) : Bool :=
  decide (c.toNat < 0x80) && !c.isAlphanum && c != '<' && c != '>'

-- Reads what follows a backslash.
def read? (flags : Flags) : List Char → Option (Escape × List Char)
  | [] => none
  | 'x' :: cs => readHex flags 2 cs
  | 'u' :: cs => readHex flags 4 cs
  | 'U' :: cs => readHex flags 8 cs
  | 'b' :: cs => readBoundary flags cs
  | c :: cs =>
      if isEscapable c then some (char c, cs)
      else
        match controlChar c, classNamed c, lookNamed c with
        | some c, _, _ => some (char c, cs)
        | _, some members, _ => some (set members, cs)
        | _, _, some condition => some (look condition, cs)
        | none, none, none => none

end Escape

end Rulebook.Regex
