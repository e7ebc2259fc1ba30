import Rulebook.Text.Blank

namespace Rulebook.Regex

structure Flags where
  ignoreCase : Bool := false
  multiLine : Bool := false
  dotNewline : Bool := false
  -- Blank characters and comments in the expression do not count.
  verbose : Bool := false

namespace Flags

def set (on : Bool) (flags : Flags) : Char → Flags
  | 'i' => { flags with ignoreCase := on }
  | 'm' => { flags with multiLine := on }
  | 's' => { flags with dotNewline := on }
  | 'x' => { flags with verbose := on }
  | _ => flags

-- Letters after the minus sign are turned off.
def apply (flags : Flags) (letters : List Char) : Flags :=
  let off := (letters.dropWhile (· != '-')).drop 1
  off.foldl (set false) ((letters.takeWhile (· != '-')).foldl (set true) flags)

-- Each letter at most once, and the minus sign not at the end.
def allowed (letters : List Char) : Bool :=
  letters.all "imsUuRx-".toList.contains && letters.eraseDups.length == letters.length &&
    letters.getLast? != some '-'

private def skipBlank : Bool → List Char → List Char
  | _, [] => []
  | true, c :: cs => skipBlank (c != '\n') cs
  | false, c :: cs =>
      if Text.isBlank c then skipBlank false cs
      else if c == '#' then skipBlank true cs
      else c :: cs

-- Drops the characters that do not count here.
def skip (flags : Flags) (cs : List Char) : List Char :=
  if flags.verbose then skipBlank false cs else cs

end Flags

end Rulebook.Regex
