import Rulebook.Text.Split

namespace Rulebook

-- An engine for regular expressions: which sources are expressions, and which texts each
-- of them matches.
class Engine where
  compile? : (source : List Char) → Option ((text : List Char) → Bool)

-- A regular expression with the text it was read from.
structure Expression [Engine] where
  source : String
  accepts : List Char → Bool
  compiled : Engine.compile? source.toList = some accepts

def Expression.parse? [Engine] (source : String) : Option Expression :=
  match h : Engine.compile? source.toList with
  | some accepts => some ⟨source, accepts, h⟩
  | none => none

-- A regular expression with the text that messages show for it.
structure Pattern where
  accepts : List Char → Bool
  display : String

inductive PatternError
  | malformed
  | unknownFlag (flag : Char)
deriving DecidableEq

namespace PatternError

def reason : PatternError → String
  | malformed => "<regex error>"
  | unknownFlag flag =>
      "unsupported regular expression flag `" ++ String.ofList [flag] ++ "`"

end PatternError

namespace Pattern

def isMatch (p : Pattern) (text : String) : Bool :=
  p.accepts text.toList

-- An expression between slashes, with flags after the second one.
def splitLiteral : List Char → Option (List Char × List Char)
  | '/' :: cs => (Text.cutLast '/' cs).filter fun (_, flags) => flags.all Char.isAlpha
  | _ => none

def isEffective (flag : Char) : Bool :=
  flag == 'i' || flag == 'm' || flag == 's'

def isIdle (flag : Char) : Bool :=
  flag == 'g' || flag == 'u'

-- The expression for a body and flags. Flags that change nothing are dropped.
def withFlags (body flags : List Char) : Except PatternError (List Char) :=
  match flags.find? fun flag => !isEffective flag && !isIdle flag with
  | some flag => .error (.unknownFlag flag)
  | none =>
      match flags.filter isEffective with
      | [] => .ok body
      | letters => .ok ('(' :: '?' :: letters ++ ')' :: body)

def compile [Engine] (source : List Char) (display : String) : Except PatternError Pattern :=
  match Engine.compile? source with
  | some accepts => .ok { accepts, display }
  | none => .error .malformed

def slashed (source : List Char) : String :=
  String.ofList ('/' :: source ++ ['/'])

def ofExpression [Engine] (e : Expression) : Pattern :=
  ⟨e.accepts, slashed e.source.toList⟩

def withDisplay [Engine] (e : Expression) (display : String) : Pattern :=
  ⟨e.accepts, display⟩

-- Reads an expression, bare or between slashes.
def parse [Engine] (source : String) : Except PatternError Pattern := do
  match splitLiteral source.toList with
  | some (body, flags) => compile (← withFlags body flags) source
  | none => compile source.toList (slashed source.toList)

end Pattern

end Rulebook
