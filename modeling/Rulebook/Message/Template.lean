namespace Rulebook

namespace Template

-- Puts the arguments in place of the %s marks. A mark without an argument stays,
-- %% is one percent sign, and arguments that are left over follow at the end.
def fillChars : List Char → List String → List Char
  | '%' :: 's' :: cs, arg :: args => arg.toList ++ fillChars cs args
  | '%' :: 's' :: cs, [] => '%' :: 's' :: fillChars cs []
  | '%' :: '%' :: cs, args => '%' :: fillChars cs args
  | c :: cs, args => c :: fillChars cs args
  | [], args => args.flatMap fun arg => ' ' :: arg.toList

def fill (template : String) (args : List String) : String :=
  String.ofList (fillChars template.toList args)

end Template

-- A template and its arguments, kept apart so that a translator can look the
-- template up.
structure Message where
  template : String
  args : List String
deriving DecidableEq

namespace Message

def plain (template : String) : Message :=
  ⟨template, []⟩

def render (m : Message) : String :=
  Template.fill m.template m.args

end Message

end Rulebook
