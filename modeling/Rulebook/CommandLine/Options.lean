import Rulebook.Json.Basic

namespace Rulebook.CommandLine

inductive Format
  | text
  | json
deriving DecidableEq

def Format.named? : String → Option Format
  | "text" => some text
  | "json" => some json
  | _ => none

-- What a document is checked with. The paths are those of files, and a dash is the
-- standard input.
structure CheckOptions where
  rules : String
  data : String := "-"
  messages : Option String := none
  config : Option String := none
  indexArrayPaths : Bool := false
  format : Format := .text

inductive Command
  | check (options : CheckOptions)
  | checks
  | help
  | checkHelp
  | checksHelp
  | version

-- Why the arguments are not understood.
inductive UsageError
  | noCommand
  | unknownCommand (name : String)
  | unexpected (argument : String)
  | missingValue (option : String)
  | badValue (option value : String)
  | repeated (option : String)
  | missingRules

namespace UsageError

def message : UsageError → String
  | noCommand => "a command is required: check or checks"
  | unknownCommand name => "unknown command " ++ name
  | unexpected argument => "unexpected argument " ++ argument
  | missingValue option => "a value is required for --" ++ option
  | badValue option value => "the value " ++ value ++ " does not fit --" ++ option
  | repeated option => "--" ++ option ++ " cannot be used more than once"
  | missingRules => "--rules is required"

end UsageError

-- The options of a check that take a value.
inductive Setting
  | rules
  | data
  | messages
  | config
  | format
deriving DecidableEq

namespace Setting

def name : Setting → String
  | rules => "rules"
  | data => "data"
  | messages => "messages"
  | config => "config"
  | format => "format"

def named? (s : String) : Option Setting :=
  [rules, data, messages, config, format].find? (·.name == s)

def ofLetter? : Char → Option Setting
  | 'r' => some rules
  | 'd' => some data
  | 'm' => some messages
  | 'c' => some config
  | _ => none

-- A format is one of the known ones, and a path is not empty.
def accepts (setting : Setting) (value : String) : Bool :=
  match setting with
  | format => (Format.named? value).isSome
  | _ => !value.isEmpty

end Setting

-- What one argument of a check is.
inductive Word
  | setting (s : Setting) (value : Option String)
  | indexArrayPaths
  | help
  | ending
  | other

-- A value may follow its option in the same argument, after a long name behind an
-- equals sign, after a letter with or without one.
def Word.ofChars : List Char → Word
  | ['-', '-'] => ending
  | '-' :: '-' :: cs =>
      let name := String.ofList (cs.takeWhile (· != '='))
      let value := (cs.dropWhile (· != '='))
      match Setting.named? name, value with
      | some s, [] => setting s none
      | some s, _ :: value => setting s (some (String.ofList value))
      | none, [] =>
          if name = "index-array-paths" then indexArrayPaths
          else if name = "help" then help
          else other
      | none, _ => other
  | '-' :: c :: cs =>
      match Setting.ofLetter? c, cs with
      | some s, [] => setting s none
      | some s, '=' :: value => setting s (some (String.ofList value))
      | some s, value => setting s (some (String.ofList value))
      | none, _ => if c = 'h' then help else other
  | _ => other

-- What has been read so far.
structure Draft where
  values : List (Setting × String) := []
  indexArrayPaths : Bool := false

namespace Draft

def get? (draft : Draft) (setting : Setting) : Option String :=
  (draft.values.find? (·.1 == setting)).map (·.2)

def set (draft : Draft) (setting : Setting) (value : String) : Except UsageError Draft :=
  if (draft.get? setting).isSome then .error (.repeated setting.name)
  else if setting.accepts value then .ok { draft with values := (setting, value) :: draft.values }
  else .error (.badValue setting.name value)

-- A configuration that is not given is the one of the environment, if there is one.
def finish (draft : Draft) (environment : Option String) : Except UsageError Command := do
  let config ← match draft.get? .config, environment with
    | some path, _ => .ok (some path)
    | none, some path =>
        if Setting.accepts .config path then .ok (some path)
        else .error (.badValue "config" path)
    | none, none => .ok none
  match draft.get? .rules with
  | none => .error .missingRules
  | some rules =>
      .ok (.check
        { rules
          data := (draft.get? .data).getD "-"
          messages := draft.get? .messages
          config
          indexArrayPaths := draft.indexArrayPaths
          format := ((draft.get? .format).bind Format.named?).getD .text })

end Draft

-- A value of its own argument must not look like an option. A dash does not.
def isValue (argument : String) : Bool :=
  argument = "-" || argument.toList.head? != some '-'

def readCheck (environment : Option String) (draft : Draft) :
    List String → Except UsageError Command
  | [] => draft.finish environment
  | argument :: rest =>
      match Word.ofChars argument.toList, rest with
      | .setting s (some value), rest => do readCheck environment (← draft.set s value) rest
      | .setting s none, value :: rest =>
          if isValue value then do readCheck environment (← draft.set s value) rest
          else .error (.missingValue s.name)
      | .setting s none, [] => .error (.missingValue s.name)
      | .indexArrayPaths, rest =>
          if draft.indexArrayPaths then .error (.repeated "index-array-paths")
          else readCheck environment { draft with indexArrayPaths := true } rest
      | .help, _ => .ok .checkHelp
      | .ending, [] => draft.finish environment
      | .ending, extra :: _ => .error (.unexpected extra)
      | .other, _ => .error (.unexpected argument)

def readHelp : List String → Except UsageError Command
  | [] | ["help"] => .ok .help
  | ["check"] => .ok .checkHelp
  | ["checks"] => .ok .checksHelp
  | topic :: _ => .error (.unknownCommand topic)

-- Reads the arguments after the name of the program.
def read (environment : Option String) : List String → Except UsageError Command
  | [] => .error .noCommand
  | "check" :: arguments => readCheck environment {} arguments
  | ["checks"] | ["checks", "--"] => .ok .checks
  | "checks" :: argument :: _ =>
      if argument = "--help" ∨ argument.startsWith "-h" then .ok .checksHelp
      else .error (.unexpected argument)
  | "help" :: topics => readHelp topics
  | argument :: _ =>
      if argument = "--help" ∨ argument.startsWith "-h" then .ok .help
      else if argument = "--version" ∨ argument.startsWith "-V" then .ok .version
      else .error (.unknownCommand argument)

end Rulebook.CommandLine
