import Rulebook.CommandLine.Run
import Rulebook.Json.Parser
import Rulebook.Regex.Engine

namespace Rulebook.CommandLine

open scoped Json Regex

-- The files of a command that can be read. The standard input is not one.
def readFiles (paths : List String) : IO (List (String × String)) :=
  (paths.filter (!isStdin ·)).filterMapM fun (path : String) =>
    try
      return some (path, ← IO.FS.readFile path)
    catch _ => return none

-- Nothing is read where no path asks for it.
def readStdin (paths : List String) : IO (Option String) := do
  if paths.any isStdin then
    try
      return some (← (← IO.getStdin).readToEnd)
    catch _ => return none
  else return some ""

def execute (command : Command) : IO Outcome := do
  let files ← readFiles command.paths
  let stdin ← readStdin command.paths
  return run { file? := fun path => Members.get? path files, stdin } command

end Rulebook.CommandLine

open Rulebook.CommandLine in
def main (arguments : List String) : IO UInt32 := do
  match read (← IO.getEnv "PARAM_VALIDATOR_CONFIG") arguments with
  | .error error =>
      (← IO.getStderr).putStr ("error: " ++ error.message ++ "\n")
      return 2
  | .ok command =>
      let outcome ← execute command
      (← IO.getStdout).putStr outcome.stdout
      (← IO.getStderr).putStr outcome.stderr
      return UInt32.ofNat outcome.exit
