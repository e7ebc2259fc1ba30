import Rulebook.CommandLine.Options
import Rulebook.Report.Rejection
import Rulebook.Text.Split
import Rulebook.Validator.Basic

namespace Rulebook.CommandLine

-- What a command reads: the files by path and the standard input, which can be
-- read once. One that is not text has none.
structure Inputs where
  file? : String → Option String
  stdin : Option String

-- What a command leaves.
structure Outcome where
  exit : Nat
  stdout : String := ""
  stderr : String := ""

-- Why a document is not checked.
inductive Trouble
  | unreadable (source : String)
  | notJson (path : String)
  | badConfig (path : String)
  | badSchema (path : String) (error : SetupError)
  | badMessages (path : String)
  | setup (error : SetupError)

namespace Trouble

def message : Trouble → String
  | unreadable source => "failed to read " ++ source ++ ": <cause>"
  | notJson path => path ++ " is not valid JSON: <json error>"
  | badConfig path => "invalid configuration in " ++ path ++ ": <cause>"
  | badSchema path error => "invalid rule schema in " ++ path ++ ": " ++ error.message
  | badMessages path => "messages in " ++ path ++ " must be a string map: <json error>"
  | setup error => error.message

end Trouble

-- A dash is the standard input. Slashes and dots after it add nothing, as in any path.
def isStdin (path : String) : Bool :=
  match Text.pieces '/' path.toList with
  | ['-'] :: rest => rest.all fun piece => piece = [] || piece = ['.']
  | _ => false

-- The text of a path and what is left to be read.
def Inputs.readText (inputs : Inputs) (path : String) : Except Trouble (String × Inputs) :=
  if isStdin path then
    match inputs.stdin with
    | some text => .ok (text, { inputs with stdin := some "" })
    | none => .error (.unreadable "standard input")
  else
    match inputs.file? path with
    | some text => .ok (text, inputs)
    | none => .error (.unreadable path)

def Inputs.readJson [JsonReader] (inputs : Inputs) (path : String) :
    Except Trouble (Json × Inputs) := do
  let (text, inputs) ← inputs.readText path
  match JsonReader.read? text with
  | some value => .ok (value, inputs)
  | none => .error (.notJson path)

def readConfig [JsonReader] (inputs : Inputs) : Option String → Except Trouble (Config × Inputs)
  | none => .ok ({}, inputs)
  | some path => do
      let (value, inputs) ← inputs.readJson path
      match Config.ofJson? value with
      | some config => .ok (config, inputs)
      | none => .error (.badConfig path)

def readSchema [JsonReader] (inputs : Inputs) (path : String) :
    Except Trouble (Schema × Inputs) := do
  let (value, inputs) ← inputs.readJson path
  match Schema.ofJson value with
  | .ok schema => .ok (schema, inputs)
  | .error error => .error (.badSchema path error)

def readMessages [JsonReader] (inputs : Inputs) : Option String → Except Trouble (Texts × Inputs)
  | none => .ok ([], inputs)
  | some path => do
      let (value, inputs) ← inputs.readJson path
      match Texts.ofJson? value with
      | some messages => .ok (messages, inputs)
      | none => .error (.badMessages path)

-- All that a check needs, with the schema compiled.
structure Job where
  validator : Validator
  rules : RuleSet
  messages : Texts
  data : Json

def CheckOptions.job [Engine] [JsonReader] (options : CheckOptions) (inputs : Inputs) :
    Except Trouble Job := do
  let (config, inputs) ← readConfig inputs options.config
  let (schema, inputs) ← readSchema inputs options.rules
  let (messages, inputs) ← readMessages inputs options.messages
  let (data, _) ← inputs.readJson options.data
  let config := { config with indexArrayPaths := config.indexArrayPaths || options.indexArrayPaths }
  let validator : Validator := { config }
  match validator.compile schema with
  | .ok rules => .ok { validator, rules, messages, data }
  | .error error => .error (.setup error)

def lines (texts : List String) : String :=
  texts.foldl (fun text line => text ++ line ++ "\n") ""

def report (format : Format) : Option ErrorList → Outcome
  | none => { exit := 0, stdout := match format with | .text => "" | .json => "null\n" }
  | some errors =>
      { exit := 1
        stdout := match format with
          | .text => lines (errors.toList.map FieldError.line)
          | .json => (Rejection.ofErrors errors).toJson.pretty ++ "\n" }

def check [Engine] [JsonReader] (options : CheckOptions) (inputs : Inputs) : Outcome :=
  match options.job inputs with
  | .ok job =>
      report options.format (job.validator.validateCompiled job.data job.rules job.messages)
  | .error trouble => { exit := 2, stderr := "error: " ++ trouble.message ++ "\n" }

def helpText : String := lines [
  "Validate JSON documents against rule schemas from the command line",
  "",
  "Usage: param-validate <COMMAND>",
  "",
  "Commands:",
  "  check   Validate a document against a rule schema",
  "  checks  List the available check names",
  "  help    Print this message or the help of the given subcommand(s)",
  "",
  "Options:",
  "  -h, --help     Print help",
  "  -V, --version  Print version"]

def checkHelpText : String := lines [
  "Validate a document against a rule schema",
  "",
  "Usage: param-validate check [OPTIONS] --rules <RULES>",
  "",
  "Options:",
  "  -r, --rules <RULES>        Rule schema (JSON object of field → rule)",
  "  -d, --data <DATA>          Document to validate; `-` reads standard input [default: -]",
  "  -m, --messages <MESSAGES>  Per-call message overrides keyed `field.check`",
  "  -c, --config <CONFIG>      Validator configuration (`messages`, `indexArrayPaths`)",
  "                             [env: PARAM_VALIDATOR_CONFIG=]",
  "      --index-array-paths    Report array elements as `field[i]`",
  "      --format <FORMAT>      Output format [default: text] [possible values: text, json]",
  "  -h, --help                 Print help"]

def checksHelpText : String := lines [
  "List the available check names",
  "",
  "Usage: param-validate checks",
  "",
  "Options:",
  "  -h, --help  Print help"]

def run [Engine] [JsonReader] (inputs : Inputs) : Command → Outcome
  | .check options => check options inputs
  | .checks => { exit := 0, stdout := lines ({} : Registry).names }
  | .help => { exit := 0, stdout := helpText }
  | .checkHelp => { exit := 0, stdout := checkHelpText }
  | .checksHelp => { exit := 0, stdout := checksHelpText }
  | .version => { exit := 0, stdout := "param-validate 0.1.0\n" }

-- The paths of the files that a command may read.
def Command.paths : Command → List String
  | .check options =>
      options.rules :: options.data :: (options.messages.toList ++ options.config.toList)
  | _ => []

end Rulebook.CommandLine
