import Rulebook.Text.Numeral

namespace Rulebook.Json

-- A part of a string: a character, or a unit of UTF-16 that is given by its number.
inductive Piece
  | char (c : Char)
  | unit (n : Nat)

namespace Piece

def simpleEscape : Char → Option Char
  | '"' => some '"'
  | '\\' => some '\\'
  | '/' => some '/'
  | 'b' => some '\x08'
  | 'f' => some '\x0c'
  | 'n' => some '\n'
  | 'r' => some '\r'
  | 't' => some '\t'
  | _ => none

-- A character that stands for itself in a string.
def isPlain (c : Char) : Bool :=
  c != '"' && c != '\\' && 0x20 ≤ c.toNat

def hexUnit? (a b c d : Char) : Option Nat :=
  [a, b, c, d].foldlM (fun value digit => (Text.hexValue digit).map (16 * value + ·)) 0

-- The pieces of what stands between two quotes. It has none if an escape is broken or a
-- control character is not escaped.
def readAll? : List Char → Option (List Piece)
  | [] => some []
  | '\\' :: 'u' :: a :: b :: c :: d :: rest => do
      let n ← hexUnit? a b c d
      (readAll? rest).map (unit n :: ·)
  | '\\' :: letter :: rest => do
      let c ← simpleEscape letter
      (readAll? rest).map (char c :: ·)
  | c :: rest => if isPlain c then (readAll? rest).map (char c :: ·) else none

def isHigh (n : Nat) : Bool :=
  0xD800 ≤ n && n < 0xDC00

def isLow (n : Nat) : Bool :=
  0xDC00 ≤ n && n < 0xE000

-- The text of pieces. Two halves of a surrogate pair are one character, and a half that stands
-- alone is none.
def join? : List Piece → Option (List Char)
  | [] => some []
  | char c :: rest => (join? rest).map (c :: ·)
  | unit high :: unit low :: rest =>
      if isHigh high && isLow low then
        (join? rest).map (Char.ofNat (0x10000 + (high - 0xD800) * 0x400 + (low - 0xDC00)) :: ·)
      else if isHigh high || isLow high then none
      else (join? (unit low :: rest)).map (Char.ofNat high :: ·)
  | unit n :: rest =>
      if isHigh n || isLow n then none else (join? rest).map (Char.ofNat n :: ·)

end Piece

-- The text of a string as it is written.
def unquote? (body : List Char) : Option String :=
  ((Piece.readAll? body).bind Piece.join?).map String.ofList

end Rulebook.Json
