import Rulebook.Validator.Run

namespace Rulebook

-- Puts the arguments into a template in a language of its own.
abbrev Translator := (template : String) → (args : List String) → String

-- Texts by name.
abbrev Texts := List (String × String)

def Texts.ofJson? : Json → Option Texts
  | .obj members => members.mapM fun (name, value) => value.string?.map (name, ·)
  | _ => none

-- The settings of a validator: texts that replace the messages of checks, by the
-- names of the checks.
structure Config where
  messages : Texts := []
  indexArrayPaths : Bool := false
  translator : Option Translator := none

namespace Config

def flag? : Json → Option Bool
  | .bool b => some b
  | _ => none

-- A setting that is not there has its default.
def setting? {α : Type} (read? : Json → Option α) (default : α) : Option Json → Option α
  | some value => read? value
  | none => some default

-- Where the settings stand: by name in an object, or in order in a list.
def places? : Json → Option (Option Json × Option Json)
  | .obj members => some (Members.get? "messages" members, Members.get? "indexArrayPaths" members)
  | .arr [] => some (none, none)
  | .arr [messages] => some (some messages, none)
  | .arr [messages, indexArrayPaths] => some (some messages, some indexArrayPaths)
  | _ => none

def ofJson? (value : Json) : Option Config := do
  let (messages, indexArrayPaths) ← places? value
  let messages ← setting? Texts.ofJson? [] messages
  let indexArrayPaths ← setting? flag? false indexArrayPaths
  some { messages, indexArrayPaths }

-- The message of a check before it is translated.
def template (config : Config) (check : String) (message : Message) : Message :=
  match Members.get? check config.messages with
  | some text => .plain text
  | none => message

def render (config : Config) (message : Message) : String :=
  match config.translator with
  | some translate => translate message.template message.args
  | none => message.render

def renderCode (config : Config) (code : ErrorCode) : String :=
  match config.translator with
  | some translate => translate code.text []
  | none => code.text

-- The error that is reported for a failure. A text given for the path and the
-- check is taken as it is.
def resolve (config : Config) (overrides : Texts) (path check : String) (failure : Failure) :
    FieldError :=
  { code := config.renderCode failure.code
    field := path
    message := (Members.get? (path ++ "." ++ check) overrides).getD
      (config.render (config.template check failure.message)) }

end Config

end Rulebook
