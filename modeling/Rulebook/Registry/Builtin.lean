import Rulebook.Check.Basic
import Rulebook.Rule.Args
import Rulebook.Rule.Params

namespace Rulebook

-- The checks that every catalogue has.
inductive Builtin
  | required
  | accepted
  | alpha
  | numeric
  | captcha
  | phone
  | string
  | id
  | date
  | dateTime
  | email
  | url
  | password
  | int
  | number
  | boolean
  | enum
  | object
  | array
deriving DecidableEq

namespace Builtin

-- The names in alphabetical order. Some checks have two.
def names : List (String × Builtin) := [
  ("accepted", accepted), ("alpha", alpha), ("array", array), ("bool", boolean),
  ("boolean", boolean), ("captcha", captcha), ("date", date), ("dateTime", dateTime),
  ("datetime", dateTime), ("email", email), ("enum", enum), ("id", id), ("int", int),
  ("integer", int), ("number", number), ("numeric", numeric), ("object", object),
  ("password", password), ("phone", phone), ("required", required), ("string", string),
  ("url", url)]

def named? (name : String) : Option Builtin :=
  Members.get? name names

def params : Builtin → Params
  | numeric | captcha => .positional ["len"]
  | string | password | int | number | array => .positional ["min", "max"]
  | enum => .list "values"
  | _ => .none

def allowEmpty (args : Args) : Except SetupError Bool := do
  if ← args.flag "allowEmpty" then .ok true else args.flag "empty"

def textRules [Engine] (args : Args) : Except SetupError TextRules := do
  let allowEmpty ← allowEmpty args
  let min ← args.count "min"
  let max ← args.count "max"
  let format ← args.pattern "format"
  let message ← args.text "message"
  .ok { allowEmpty, min, max, format, message }

-- A text of a fixed form, which may be allowed to be empty.
def fixedText (name : String) (format : Pattern) (message : Option String) (args : Args) :
    Except SetupError Leaf := do
  let allowEmpty ← allowEmpty args
  .ok (.text name { allowEmpty, format := some format, message })

def limits (args : Args) : Except SetupError Limits := do
  let min ← args.bound "min"
  let max ← args.bound "max"
  .ok { min, max }

-- Counts between commas.
def isCountList (raw : String) : Bool :=
  (Text.pieces ',' raw.toList).all fun item => (Json.countOfText? item).isSome

-- The format of a password: an option, or a text after the colon that is no list
-- of counts.
def passwordFormat [Engine] (args : Args) : Except SetupError (Option Pattern) := do
  match ← args.pattern "format" with
  | some format => .ok (some format)
  | none =>
      match args.raw.filter (!isCountList ·) with
      | none => .ok none
      | some raw =>
          match Pattern.parse raw with
          | .ok format => .ok (some format)
          | .error error => args.refuse "format" (.pattern error)

-- A format takes the place of the bounds, which are then not read.
def charset [Engine] (args : Args) : Except SetupError Charset := do
  match ← passwordFormat args with
  | some format => .ok (.custom format)
  | none =>
      let min := (← args.count "min").getD 8
      let max := (← args.count "max").getD 18
      if min < 1 ∨ max < min then .error (.badBounds args.rule min max)
      else .ok (.standard min max)

def passwordRules [Engine] (args : Args) : Except SetupError Password := do
  let charset ← charset args
  let compare ← args.text "compare"
  .ok { charset, compare }

def enumValues (args : Args) : Except SetupError (List Json) :=
  match args.get? "values" with
  | some (.arr allowed) => .ok allowed
  | _ => .error (.missingList args.rule "values")

-- Builds a check from its options and from the rules of its parts. Only objects
-- and arrays have parts: the fields of the object, or the one rule of the elements.
def build [Engine] (args : Args) (parts : List (String × Rule)) :
    Builtin → Except SetupError Check
  | required => .ok (.leaf .required)
  | accepted => .ok (.leaf .accepted)
  | alpha => .ok (.leaf .alpha)
  | numeric => do .ok (.leaf (.numeric ((← args.count "len").getD 0)))
  | captcha => do .ok (.leaf (.captcha ((← args.count "len").getD 6)))
  | phone => .ok (.leaf .phone)
  | string => do .ok (.leaf (.text "string" (← textRules args)))
  | id => do .ok (.leaf (← fixedText "id" Format.numberPattern none args))
  | date => do .ok (.leaf (← fixedText "date" Format.datePattern none args))
  | dateTime => do .ok (.leaf (← fixedText "dateTime" Format.dateTimePattern none args))
  | email => do
      .ok (.leaf (← fixedText "email" Format.emailPattern (some "should be an email") args))
  | url => do .ok (.leaf (.url (← allowEmpty args)))
  | password => do .ok (.leaf (.password (← passwordRules args)))
  | int => do .ok (.leaf (.int (← limits args)))
  | number => do .ok (.leaf (.number (← limits args)))
  | boolean => .ok (.leaf .boolean)
  | enum => do .ok (.leaf (.enum (← enumValues args)))
  | object => .ok (.object (if args.has "rule" then some parts else none))
  | array => do
      let min ← args.count "min"
      let max ← args.count "max"
      .ok (.array min max (parts.head?.map (·.2)))

end Builtin

end Rulebook
