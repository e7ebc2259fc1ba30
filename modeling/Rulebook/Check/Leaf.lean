import Rulebook.Check.Password
import Rulebook.Check.Url
import Rulebook.Message.Placeholder
import Rulebook.Rule.Bound

namespace Rulebook

-- Limits that belong to the allowed range.
structure Limits where
  min : Option Bound := none
  max : Option Bound := none

namespace Limits

-- The limit that a number breaks, the upper one first.
def broken (limits : Limits) (x : Binary64) : Option Failure :=
  let tooBig := limits.max.filter (·.limit.lt x)
  let tooSmall := limits.min.filter fun b => x.lt b.limit
  (tooBig.map fun b => .invalid "should smaller than %s" [b.text]).or
    (tooSmall.map fun b => .invalid "should bigger than %s" [b.text])

end Limits

-- The checks of the catalogue that have no rules inside.
inductive Leaf
  | required
  | accepted
  | alpha
  -- Digits, of the given count unless it is zero.
  | numeric (count : Nat)
  | captcha (count : Nat)
  | phone
  | text (name : String) (rules : TextRules)
  | url (allowEmpty : Bool)
  | password (p : Password)
  | int (limits : Limits)
  | number (limits : Limits)
  | boolean
  | enum (allowed : List Json)

namespace Leaf

def name : Leaf → String
  | required => "required"
  | accepted => "accepted"
  | alpha => "alpha"
  | numeric _ => "numeric"
  | captcha _ => "captcha"
  | phone => "phone"
  | text name _ => name
  | url _ => "url"
  | password _ => "password"
  | int _ => "int"
  | number _ => "number"
  | boolean => "boolean"
  | enum _ => "enum"

def digitsOf (count : Nat) (value : Json) : Bool :=
  value.scalarText.any fun s =>
    Text.isDigitRun s.toList && (count == 0 || s.toList.length == count)

-- Equality with an allowed value: numbers count by their value as floats, but
-- inside arrays and objects the two kinds of numbers differ.
def allows (allowed value : Json) : Bool :=
  match allowed, value with
  | .num a, .num b => a.same b || a.toBinary64.same b.toBinary64
  | _, _ => allowed.same value

def listing (allowed : List Json) : String :=
  String.ofList (Text.joinWith ", ".toList (allowed.map (·.display.toList)))

def isAccepted : Json → Bool
  | .str s => ["yes", "on", "1", "true"].contains s
  | .num n => n.toBinary64.same (Binary64.ofInt 1 (by decide))
  | .bool b => b
  | _ => false

def verdict (leaf : Leaf) (value : Json) (context : Context) : Verdict :=
  match leaf with
  | required => .when (!value.isBlank) ⟨.plain "required", .missingField⟩
  | accepted => .when (isAccepted value) (.invalid "should be accepted" [])
  | alpha =>
      .when (value.scalarText.any fun s => Format.letters.isMatch s.toList)
        (.invalid "The field must be entirely alphabetic characters." [])
  | numeric count => .when (digitsOf count value) (.invalid "all chars should be numeric" [])
  | captcha count =>
      .when (digitsOf count value)
        (if count = 0 then .invalid "should be digits" []
        else .invalid "should be %s digits" [Text.natText count])
  | phone =>
      .when (value.scalarText.any fun s => Format.phone.isMatch s.toList)
        (.invalid "should be a valid phone number" [])
  | text _ rules => rules.verdict value
  | url allowEmpty =>
      match textOf allowEmpty value with
      | .error failure => .fail failure
      | .ok none => .pass
      | .ok (some s) => .when (Url.accepts s) (.invalid "should be a url" [])
  | password p => p.verdict value context
  | int limits =>
      match value.number? with
      | some x =>
          if value.isInteger then .ofOption (limits.broken x)
          else .fail (.invalid "should be an integer" [])
      | none => .fail (.invalid "should be an integer" [])
  | number limits =>
      match value.number? with
      | some x => .ofOption (limits.broken x)
      | none => .fail (.invalid "should be a number" [])
  | boolean => .when (value.kind == .boolean) (.invalid "should be a boolean" [])
  | enum allowed =>
      .when (allowed.any (allows · value)) (.invalid "should be one of %s" [listing allowed])

end Leaf

end Rulebook
