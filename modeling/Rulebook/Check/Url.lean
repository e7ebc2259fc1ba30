import Rulebook.Check.Format
import Rulebook.Text.Numeral

namespace Rulebook.Url

open Regex

-- Letter case does not count in a scheme, in the sense of all scripts.
def schemeLetter (c : Char) : Regex := chars (.fold (.single c))

def schemeWord (s : String) : Regex := all (s.toList.map schemeLetter)

def scheme : Regex :=
  whole (any [seq (schemeWord "http") (optional (schemeLetter 's')), schemeWord "ftp"])

-- The parts of a dotted quad: the first from 1 to 223, the last from 1 to 254.
def firstPart : Regex :=
  let digit := Format.digit
  any [seq (chars (.range '1' '9')) (optional digit),
    all [char '1', digit, digit],
    all [char '2', chars (.ofChars ['0', '1']), digit],
    all [char '2', char '2', chars (.range '0' '3')]]

def middlePart : Regex :=
  let digit := Format.digit
  any [seq (optional (char '1')) (rep digit 1 (some 2)),
    all [char '2', chars (.range '0' '4'), digit],
    all [char '2', char '5', chars (.range '0' '5')]]

def lastPart : Regex :=
  let digit := Format.digit
  any [seq (chars (.range '1' '9')) (optional digit),
    all [char '1', digit, digit],
    all [char '2', chars (.range '0' '4'), digit],
    all [char '2', char '5', chars (.range '0' '4')]]

def quad : Regex :=
  all [firstPart, times 2 (seq (char '.') middlePart), char '.', lastPart]

-- The letters of host names: those of ASCII, and all characters from U+00A1 to
-- U+FFFF.
def hostLetter : CharClass :=
  .fold (.union (.range 'a' 'z') (.range '\u00a1' '\uffff'))

def hostChar : CharClass := .union hostLetter .asciiDigit

def hostLabel : Regex :=
  seq (star (seq (chars hostChar) (star (char '-')))) (plus (chars hostChar))

def host : Regex :=
  all [hostLabel, star (seq (char '.') hostLabel), char '.', rep (chars hostLetter) 2 none]

def port : Regex := optional (seq (char ':') (rep Format.digit 2 (some 5)))

def path : Regex := optional (seq (char '/') (star (chars (.compl .space))))

-- A host with what may follow it.
def located (host : Regex) : Regex := whole (all [host, port, path])

-- Where the host may begin: after an at sign with a text without blanks before
-- it, the last one first, or directly after the slashes.
def hostStarts (rest : List Char) : List (List Char) :=
  afterAts [] false rest ++ [rest]
where
  -- The tails after the at signs, the last first.
  afterAts (found : List (List Char)) (begun : Bool) : List Char → List (List Char)
    | [] => found
    | c :: cs =>
        if Text.isBlank c then found
        else afterAts (if begun && c == '@' then cs :: found else found) true cs

-- The number of a part of an address, which has no leading zero.
def octet? (part : List Char) : Option Nat :=
  if Text.isDigitRun part ∧ (part.length = 1 ∨ part.head? ≠ some '0') ∧
      Text.natOfDigits part < 256 then
    some (Text.natOfDigits part)
  else none

def octets? (address : List Char) : Option (List Nat) :=
  (Text.pieces '.' address).mapM octet?

-- Private, loopback and link-local addresses.
def isReserved : List Nat → Bool
  | a :: b :: _ =>
      a == 10 || (a == 172 && 16 ≤ b && b ≤ 31) || (a == 192 && b == 168) || a == 127 ||
        (a == 169 && b == 254)
  | _ => false

-- The part of a location before its port and path.
def address (location : List Char) : List Char :=
  location.takeWhile fun c => c != ':' && c != '/'

-- The answer that a location decides, if it is one. A dotted quad must not be a
-- reserved address.
def verdict? (location : List Char) : Option Bool :=
  if (located quad).isMatch location then
    some ((octets? (address location)).any fun octets => !isReserved octets)
  else if (located host).isMatch location then some true
  else none

-- A scheme, two slashes and a location, of which the first that is one decides.
def accepts (text : String) : Bool :=
  match Text.cut ':' text.toList with
  | some (name, '/' :: '/' :: rest) =>
      scheme.isMatch name && ((hostStarts rest).findSome? verdict?).getD false
  | _ => false

end Rulebook.Url
