import ScenarioRunner.CommandLine.Program

/-!
# The command line

The program is called in the directory of a project and sees the files below it. Nothing is started from here: what a
launch gives is taken from the directory `recordings`, where the first line of each file is the pattern of a scenario
and the other lines are what its run has written. A scenario without a recording cannot be started.
-/

namespace ScenarioRunner.CommandLine

open ScenarioRunner.Calendar
open ScenarioRunner.Files
open ScenarioRunner.Run
open ScenarioRunner.Settings

set_option autoImplicit false

def readEntries : Nat → FileTree → Path → IO FileTree
  | 0, t, _ => return t
  | depth + 1, t, p => do
    let mut tree := t
    for entry in ← ((← IO.currentDir) / p.text).readDir do
      let child := p.child entry.fileName
      if ← entry.path.isDir then tree ← readEntries depth (tree.put child .directory) child
      else tree := tree.put child (.file (← IO.FS.readBinFile entry.path).toList)
    return tree

def readFiles : IO FileTree := do
  let workingDir := Path.ofText (← IO.currentDir).toString
  readEntries 64 (({ workingDir := workingDir : FileTree }).put workingDir .directory) workingDir

def readEnvironment : IO Environment := do
  let listed ← IO.FS.readBinFile "/proc/self/environ"
  let bindings := Text.pieces '\x00' (Text.decodeUtf8 listed.toList)
  return bindings.filterMap fun binding =>
    (Text.afterFirst? '=' binding).map fun value =>
      (String.ofList (binding.takeWhile (· != '=')), String.ofList value)

/-- The system dates the entry of this process with its start. -/
def readClock : IO Moment := do
  let started := (← ((← IO.currentDir) / "/proc/self").metadata).modified
  return Moment.ofSeconds started.sec.toNat

def recording? (files : FileTree) (pattern : String) : Option (List Char) :=
  let directory := (files.workingDir.child "recordings").names
  (files.childNames directory).findSome? fun name =>
    match files.readText { root := "/", names := directory ++ [name] } with
    | .ok text => Text.after? (pattern.toList ++ ['\n']) text
    | .error _ => none

def replay (files : FileTree) (launch : Launch) : LaunchResult :=
  let pattern := (launch.argv.dropWhile (· != nameOption)).getD 1 ""
  match recording? files pattern with
  | some output => .started { stdout := Text.encodeUtf8 (String.ofList output) }
  | none => .failed ("no recording for " ++ pattern)

def writeNew (before after : FileTree) : IO Unit := do
  for (names, content) in after.entries do
    if (before.find? names).isNone then
      let path := Path.text { root := "/", names }
      match content with
      | .directory => IO.FS.createDirAll path
      | .file bytes => IO.FS.writeBinFile path ⟨bytes.toArray⟩

end ScenarioRunner.CommandLine

open ScenarioRunner.CommandLine in
def main (arguments : List String) : IO UInt32 := do
  let files ← readFiles
  let world : World :=
    { files, environment := ← readEnvironment, system := replay files, now := ← readClock }
  let answer := world.run arguments
  (← IO.getStdout).putStr answer.text
  if let some fault := answer.fault then (← IO.getStderr).putStrLn fault.message
  writeNew files answer.files
  return answer.exitCode.toUInt32
