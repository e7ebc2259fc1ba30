import Rulebook.Regex.Pattern
import Rulebook.Regex.Search

namespace Rulebook

namespace CharClass

def asciiDigit : CharClass := range '0' '9'

def asciiLetter : CharClass := union (range 'a' 'z') (range 'A' 'Z')

def asciiAlnum : CharClass := union asciiLetter asciiDigit

end CharClass

-- The texts of fixed form.
namespace Format

open Regex

def digit : Regex := chars .asciiDigit

def digits (n : Nat) : Regex := times n digit

def letters : Regex := whole (plus (chars .asciiLetter))

def number : Regex := whole (plus digit)

def day : Regex := all [digits 4, char '-', digits 2, char '-', digits 2]

def date : Regex := whole day

def time : Regex := all [digits 2, char ':', digits 2, char ':', digits 2]

def dateTime : Regex := whole (all [day, char ' ', time])

-- A mobile number: one of the carriers' first three digits and eight more, after
-- an optional dialling code.
def carrier : Regex :=
  any [seq (literal "13".toList) digit,
    seq (literal "15".toList) (chars (.ofChars "012356789".toList)),
    literal "166".toList,
    seq (literal "17".toList) (chars (.ofChars "3678".toList)),
    seq (literal "18".toList) digit,
    seq (literal "14".toList) (chars (.ofChars "57".toList))]

def diallingCode : Regex :=
  any [literal "0".toList, literal "86".toList, literal "17951".toList]

def phone : Regex := whole (all [optional diallingCode, carrier, digits 8])

-- Atoms between dots, an at sign, and two or more labels between dots. A label
-- neither starts nor ends with a dash.
def atomChar : CharClass :=
  .union .asciiAlnum (.ofChars "!#$%&'*+/=?^_`\x7b|\x7d~-".toList)

def mailAtom : Regex := plus (chars atomChar)

def label : Regex :=
  let alnum := chars .asciiAlnum
  seq alnum (optional (seq (star (chars (.union .asciiAlnum (.single '-')))) alnum))

def email : Regex :=
  whole (all [mailAtom, star (seq (char '.') mailAtom), char '@',
    plus (seq label (char '.')), label])

-- The formats as messages show them.
def numberPattern : Pattern := ⟨number.isMatch, "/^\\d+$/"⟩

def datePattern : Pattern := ⟨date.isMatch, "/^\\d\x7b4\x7d\\-\\d\x7b2\x7d\\-\\d\x7b2\x7d$/"⟩

def dateTimePattern : Pattern :=
  ⟨dateTime.isMatch,
    "/^\\d\x7b4\x7d\\-\\d\x7b2\x7d\\-\\d\x7b2\x7d \\d\x7b2\x7d:\\d\x7b2\x7d:\\d\x7b2\x7d$/"⟩

-- Failures of this one have a message of their own.
def emailPattern : Pattern := ⟨email.isMatch, "/email/"⟩

end Format

end Rulebook
