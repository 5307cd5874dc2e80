import ScenarioRunner.Settings.Runner
import ScenarioRunner.Text.Lead

/-!
# Commands

A scenario is selected by a pattern for its name. Characters that mean something in patterns are escaped, and a
placeholder of an outline lets any text pass.
-/

namespace ScenarioRunner.Run

open ScenarioRunner.Files
open ScenarioRunner.Settings
open ScenarioRunner.Text

set_option autoImplicit false

def patternSpecials : List Char :=
  ['.', '+', '*', '?', '^', '$', '(', ')', '[', ']', '\x7b', '\x7d', '|', '\\']

def escapeSpecials (name : List Char) : List Char :=
  name.flatMap fun c => if patternSpecials.contains c then ['\\', c] else [c]

/-- Every placeholder, from an opening to the next closing bracket, becomes any text. -/
def widenPlaceholders : List Char → List Char
  | [] => []
  | c :: s =>
    if c = '<' then
      match _h : afterFirst? '>' s with
      | some rest => '.' :: '*' :: widenPlaceholders rest
      | none => c :: widenPlaceholders s
    else c :: widenPlaceholders s
termination_by s => s.length
decreasing_by
  · have := length_of_afterFirst? _h
    simp only [List.length_cons]
    omega
  · simp
  · simp

def namePattern (name : String) : String :=
  String.ofList (widenPlaceholders ('^' :: escapeSpecials name.toList ++ ['$']))

def nameOption : String := "--name"

def commandFor (settings : RunnerSettings) (name : String) : List String :=
  settings.nodePath :: settings.cucumberPath :: settings.features ++
    nameOption :: namePattern name :: settings.cliOptions

def quotePattern : List String → List String
  | option :: argument :: rest =>
    if option = nameOption then option :: ("\"" ++ argument ++ "\"") :: rest
    else option :: quotePattern (argument :: rest)
  | rest => rest

/-- The command as one line, after the variables with their values masked. -/
def describeCommand (settings : RunnerSettings) (name : String) : String :=
  " ".intercalate (settings.runVariables.map (fun entry => entry.1 ++ "=......") ++
    quotePattern (commandFor settings name))

structure Launch where
  argv : List String
  cwd : Path
  environment : Environment
deriving DecidableEq

/-- Configured variables win over those of the environment. -/
def launchFor (settings : RunnerSettings) (env : Environment) (name : String) : Launch :=
  ⟨commandFor settings name, settings.cwd, env.update settings.runVariables⟩

end ScenarioRunner.Run
