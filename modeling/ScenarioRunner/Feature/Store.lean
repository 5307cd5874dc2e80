import ScenarioRunner.Feature.Draft
import ScenarioRunner.Files.Glob

/-!
# The store of feature files

The store keeps the latest tree of every file. Each reading of a file takes a new generation, and a case is current as
long as its generation is the one that is stored for its file. A text without a feature leaves a known file as it is.
-/

namespace ScenarioRunner.Feature

open ScenarioRunner.Files

set_option autoImplicit false

structure FeatureFile where
  uri : String
  root : Option Suite
  generation : Int

def FeatureFile.cases (f : FeatureFile) : List Case :=
  match f.root with
  | some suite => suite.cases
  | none => []

structure Store where
  files : List FeatureFile := []
  nextGeneration : Int := 1

def Store.find? (s : Store) (uri : String) : Option FeatureFile :=
  s.files.find? fun f => f.uri == uri

def putFile : List FeatureFile → FeatureFile → List FeatureFile
  | [], file => [file]
  | first :: rest, file => if first.uri = file.uri then file :: rest else first :: putFile rest file

def Store.update (s : Store) (uri text : String) : Store × FeatureFile :=
  let next := { s with nextGeneration := s.nextGeneration + 1 }
  let file : FeatureFile := ⟨uri, build uri text s.nextGeneration, s.nextGeneration⟩
  match file.root, s.find? uri with
  | none, some previous => (next, previous)
  | _, _ => ({ next with files := putFile s.files file }, file)

def Store.forget (s : Store) (uri : String) : Store :=
  { s with files := s.files.filter fun f => f.uri != uri }

def Store.isStale (s : Store) (c : Case) : Bool :=
  match s.find? c.uri with
  | some file => file.generation != c.generation
  | none => true

/-- A file that cannot be read counts as empty. -/
def textAt (t : FileTree) (p : Path) : String :=
  match t.readText p with
  | .ok s => String.ofList s
  | .error _ => ""

/-- Reads a file. A path with a null character is refused before a generation is taken. -/
def Store.updateFromDisk (s : Store) (t : FileTree) (p : Path) : Except Fault (Store × FeatureFile) :=
  if p.hasNull then .error .nullCharacter else .ok (s.update (t.workingDir.resolve p).uri (textAt t p))

def Store.readFiles (t : FileTree) (filter : Option String) :
    Store → List Path → Except Fault (Store × List FeatureFile)
  | s, [] => .ok (s, [])
  | s, p :: rest => do
    let (s, file) ← s.updateFromDisk t p
    let (s, files) ← Store.readFiles t filter s rest
    return (s, if file.root.any (·.containsMatch filter) then file :: files else files)

def Store.parseFeatures (s : Store) (t : FileTree) (base : Path) (patterns : List String)
    (filter : Option String) : Except Fault (Store × List FeatureFile) := do
  s.readFiles t filter (← t.globAll base patterns)

end ScenarioRunner.Feature
