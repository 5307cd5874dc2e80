import ScenarioRunner.Files.FileTree
import ScenarioRunner.Settings.VariableFile
import ScenarioRunner.Settings.Layer
import ScenarioRunner.Settings.Yaml.Document

/-!
# Loading settings

The settings come from one file, over which an environment may lay a second one. The second file's overrides reach one
level deep and come first; the rest of it is merged. Then variables are put in. A variable file beside the settings adds
to the environment what is not set there.
-/

namespace ScenarioRunner.Settings

open ScenarioRunner.Files

set_option autoImplicit false

/-- What is held while settings are loaded, and stays if loading fails. -/
structure Loaded where
  settings : Value := .mapping []
  environment : Environment

/-- The variables of a file; a directory of its name has none. -/
def readVariables (t : FileTree) (env : Environment) (precedence : VariableFile.Precedence) (p : Path) :
    Except Fault Environment :=
  match t.readText p with
  | .ok s => .ok (VariableFile.environmentOf precedence env s)
  | .error (.file .isDirectory) => .ok []
  | .error fault => .error fault

/-- The value of a settings file; a value that counts as not set is an empty mapping. -/
def readSettings (t : FileTree) (p : Path) : Except Fault SharedValue := do
  let v ← Yaml.readDocument (← t.readText p)
  return if v.value.isSet then v else .mapping 0 []

def variablesBeside (t : FileTree) (env : Environment) (settingsPath : Path) : Except Fault Environment := do
  let path := settingsPath.parent.child ".env"
  if (← t.isPresent path) && !VariableFile.isSwitchedOff env then readVariables t env .environmentFirst path
  else return []

/-- Adds the variables of the file beside the settings. Those before one that cannot be set stay. -/
def Loaded.readEnvironment (l : Loaded) (t : FileTree) (settingsPath : Path) : Loaded × Except Fault Unit :=
  match variablesBeside t l.environment settingsPath with
  | .error fault => (l, .error fault)
  | .ok added =>
    let (environment, result) := l.environment.complete added
    ({ l with environment }, result)

def readBase (t : FileTree) (settingsPath : Path) : Except Fault SharedValue := do
  if ← t.isPresent settingsPath then readSettings t settingsPath else return .mapping 0 []

def overridesKey : String :=
  "overrides"

def splitOverlay : Value → Except Fault (Option Value × Entries)
  | .mapping entries =>
    .ok (valueOf? entries (.text overridesKey), entries.filter fun entry => entry.1 != .text overridesKey)
  | .list items =>
    let names := items.any fun
      | .text s => s == overridesKey
      | _ => false
    .error (if names then .overlayNotContainer else .overlayNotMapping)
  | v => .error (if v.isText then .overlayNotMapping else .overlayNotContainer)

def overridden (base : SharedEntries) : Option Value → Except Fault Entries
  | none => .ok (updatedEntries [] base)
  | some (.mapping overrides) => .ok (overrideShared base overrides)
  | some _ => .error .overlayNotMapping

def overlayPath (settingsPath : Path) (environment : String) : Path :=
  (settingsPath.parent.child "environments").child (environment ++ ".yaml")

def layOverlay (base : SharedEntries) (t : FileTree) (settingsPath : Path) (environment : Option String) :
    Except Fault Entries := do
  match environment with
  | none => return updatedEntries [] base
  | some "" => return updatedEntries [] base
  | some name =>
    let path := overlayPath settingsPath name
    if ← t.isPresent path then
      let (overrides, rest) ← splitOverlay (← readSettings t path).value
      return mergeEntries (← overridden base overrides) rest
    else return updatedEntries [] base

def Loaded.substitute (l : Loaded) : Loaded × Except Fault Value :=
  if l.settings.hasHalvedReference then (l, .error .halfInVariableName)
  else
    let final := l.settings.substitute l.environment
    ({ l with settings := final }, .ok final)

/-- The settings as they are held in the end, or as they were held when loading failed, with the fault. -/
def load (t : FileTree) (env : Environment) (settingsPath : Path) (environment : Option String) :
    Loaded × Except Fault Value :=
  let start : Loaded := { environment := env }
  match start.readEnvironment t settingsPath with
  | (withVariables, .error fault) => (withVariables, .error fault)
  | (withVariables, .ok ()) =>
    match readBase t settingsPath with
    | .error fault => (withVariables, .error fault)
    | .ok base =>
      let held := { withVariables with settings := base.value }
      match base with
      | .mapping _ entries =>
        match layOverlay entries t settingsPath environment with
        | .error fault => (held, .error fault)
        | .ok merged => { held with settings := .mapping merged }.substitute
      | _ => (held, .error (.settings (.fileNotMapping settingsPath.text)))

end ScenarioRunner.Settings
