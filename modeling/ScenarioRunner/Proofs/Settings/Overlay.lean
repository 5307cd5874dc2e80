import ScenarioRunner.Settings.Load

/-!
# The file of an environment

Main statement: laying the file of an environment over the settings is reading it, if there is one, and then putting
its overrides and the rest of it over them.
-/

namespace ScenarioRunner.Settings

open ScenarioRunner.Files

set_option autoImplicit false

def readOverlay (t : FileTree) (settingsPath : Path) (environment : Option String) :
    Except Fault (Option SharedValue) := do
  match environment with
  | none => return none
  | some "" => return none
  | some name =>
    let path := overlayPath settingsPath name
    if ← t.isPresent path then return some (← readSettings t path) else return none

def withOverlay (base : SharedEntries) : Option SharedValue → Except Fault Entries
  | none => .ok (updatedEntries [] base)
  | some overlay => do
    let (overrides, rest) ← splitOverlay overlay.value
    return mergeEntries (← overridden base overrides) rest

theorem layOverlay_eq_bind (base : SharedEntries) (t : FileTree) (settingsPath : Path) (environment : Option String) :
    layOverlay base t settingsPath environment = readOverlay t settingsPath environment >>= withOverlay base := by
  cases environment with
  | none => rfl
  | some name =>
    by_cases hName : name = ""
    · rw [hName]
      rfl
    · rw [layOverlay, readOverlay]
      · cases t.isPresent (overlayPath settingsPath name) with
        | error fault => rfl
        | ok present =>
          cases present with
          | false => rfl
          | true => cases readSettings t (overlayPath settingsPath name) <;> rfl
      · exact hName
      · exact hName

def settingsWith (base overlay : String) : FileTree where
  workingDir := { root := "/" }
  entries := [(["config.yaml"], .file (Text.encodeUtf8 base)), (["environments"], .directory),
    (["environments", "ci.yaml"], .file (Text.encodeUtf8 overlay))]

def settingsFile : Path :=
  ⟨"", ["config.yaml"]⟩

end ScenarioRunner.Settings
