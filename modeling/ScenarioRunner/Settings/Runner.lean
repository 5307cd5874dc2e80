import ScenarioRunner.Settings.Load
import ScenarioRunner.Text.Blank

/-!
# Settings of the runner

The section of the settings that says which features to run, and how.
-/

namespace ScenarioRunner.Settings

open ScenarioRunner.Files

set_option autoImplicit false

structure RunnerSettings where
  features : List String := ["features/**/*.feature"]
  /-- The patterns of the features as they are sought among files. -/
  patterns : List String := features
  runVariables : Environment := []
  cliOptions : List String := []
  cucumberPath : String := "node_modules/@cucumber/cucumber/bin/cucumber.js"
  nodePath : String := "node"
  cwd : Path
  /-- The directory as it is sought among files. -/
  base : Path := cwd
  aggregateOutlines : Bool := false
deriving DecidableEq

def sectionKey : String := "cucumber_runner"

def sectionOf (settings : Value) : Except Fault Entries :=
  match settings.getD sectionKey with
  | .mapping entries => .ok entries
  | v => if v.isSet then .error (.settings .sectionNotMapping) else .ok []

def Entries.value (entries : Entries) (key : String) : Value :=
  (valueOf? entries (.text key)).getD .null

def textList (form : Value → Except Fault String) (v : Value) (key : String) : Except Fault (List String) := do
  match v with
  | .null => return []
  | .list items => items.mapM form
  | _ => if v.isText then return [← form v] else throw (.settings (.notList key v.typeName))

def trueTexts : List String := ["true", "yes", "on", "1"]

def falseTexts : List String := ["false", "no", "off", "0", ""]

/-- A truth value may also be given as text, in letters of any case. Only ASCII letters occur in these texts. -/
def flag (v : Value) (key : String) : Except Fault Bool := do
  match v with
  | .bool b => return b
  | .null => return false
  | _ =>
    let word := String.ofList ((Text.trim (← v.shown).toList).map Char.toLower)
    if trueTexts.contains word then return true
    else if falseTexts.contains word then return false
    else throw (.settings (.notFlag key (← v.quoted)))

def path? (form : Value → Except Fault String) (v : Value) : Except Fault (Option Path) := do
  if !v.isSet then return none
  if v.isText then return some (Path.ofText (← form v)) else throw .pathNotText

/-- Relative directories start at the base, and so does the base itself. -/
def directoryOf (base : Path) (configured : Option Path) : Path :=
  base.join (configured.getD base)

def fileVariables (t : FileTree) (env : Environment) (cwd : Path) (file : Option Path) :
    Except Fault Environment := do
  match file with
  | none => return []
  | some p => if ← t.isPresent (cwd.join p) then readVariables t env .fileFirst (cwd.join p) else return []

def shownEntries : Entries → Except Fault Environment
  | [] => .ok []
  | (key, v) :: rest => do return ((← key.shown), (← v.shown)) :: (← shownEntries rest)

def configuredVariables (v : Value) : Except Fault Environment :=
  match v with
  | .mapping entries => shownEntries entries
  | _ => if v.isSet then .error (.settings .variablesNotMapping) else .ok []

def shownOr (v : Value) (default : String) : Except Fault String :=
  if v.isSet then v.shown else .ok default

/-- Variables in the settings come after those of the file. -/
def RunnerSettings.ofSettings (t : FileTree) (env : Environment) (settings : Value) (base : Path) :
    Except Fault RunnerSettings := do
  let entries ← sectionOf settings
  let cwd := directoryOf base (← path? Value.shown (entries.value "cwd"))
  let soughtCwd := directoryOf base (← path? Value.sought (entries.value "cwd"))
  let defaults : RunnerSettings := { cwd }
  let inFile ← fileVariables t env soughtCwd (← path? Value.sought (entries.value "env_file"))
  let configured ← configuredVariables (entries.value "env_variables")
  let features ← textList Value.shown (entries.value "features") "features"
  let patterns ← textList Value.sought (entries.value "features") "features"
  let cliOptions ← textList Value.shown (entries.value "cli_options") "cli_options"
  let cucumberPath ← shownOr (entries.value "cucumber_path") defaults.cucumberPath
  let nodePath ← shownOr (entries.value "node_path") defaults.nodePath
  let aggregateOutlines ← flag (entries.value "aggregate_outlines") "aggregate_outlines"
  return {
    features := if features.isEmpty then defaults.features else features
    patterns := if patterns.isEmpty then defaults.features else patterns
    runVariables := inFile.update configured
    cliOptions
    cucumberPath
    nodePath
    cwd
    base := soughtCwd
    aggregateOutlines }

end ScenarioRunner.Settings
