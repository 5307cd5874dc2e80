import ScenarioRunner.Fault
import ScenarioRunner.Files.Path

/-!
# File trees

The files and directories that a run can see, as data. Every entry has its full list of names from the root, and the
directories above an entry are entries too.
-/

namespace ScenarioRunner.Files

open ScenarioRunner.Text

set_option autoImplicit false

inductive Content where
  | file (bytes : List UInt8)
  | directory
deriving DecidableEq

structure FileTree where
  /-- Where relative paths start. -/
  workingDir : Path
  entries : List (List String × Content) := []

/-- The root is always there. -/
def FileTree.find? (t : FileTree) (names : List String) : Option Content :=
  if names.isEmpty then some .directory else t.entries.lookup names

def FileTree.isDirectoryAt (t : FileTree) (names : List String) : Bool :=
  t.find? names == some .directory

/-- The longest name and the longest path that the system takes, in bytes. -/
def nameLimit : Nat := 255

def pathLimit : Nat := 4095

/-- Where a path leads, one name after the other; a double dot leads from a directory to the one above. The first name
that cannot be followed decides what is wrong with the path. -/
def FileTree.locate (t : FileTree) (p : Path) : Except Fault (List String) :=
  if p.hasNull then .error .nullCharacter
  else if pathLimit < p.text.utf8ByteSize then .error (.file .nameTooLong)
  else
    (t.workingDir.join p).names.foldlM (fun here name =>
      if !t.isDirectoryAt here then .error (.file .notDirectory)
      else if name == ".." then .ok here.dropLast
      else if nameLimit < name.utf8ByteSize then .error (.file .nameTooLong)
      else if (t.find? (here ++ [name])).isSome then .ok (here ++ [name])
      else .error (.file .missing)) []

/-- Whether something is there. A path that leads nowhere is no fault, but a name that is too long is. -/
def FileTree.isPresent (t : FileTree) (p : Path) : Except Fault Bool :=
  match t.locate p with
  | .ok _ => .ok true
  | .error (.file .nameTooLong) => .error (.file .nameTooLong)
  | .error _ => .ok false

def FileTree.readText (t : FileTree) (p : Path) : Except Fault (List Char) := do
  match t.find? (← t.locate p) with
  | none => throw (.file .missing)
  | some .directory => throw (.file .isDirectory)
  | some (.file bytes) =>
    match decodeUtf8? bytes with
    | some s => return unifyNewlines s
    | none => throw .notUtf8

def setEntry : List (List String × Content) → List String → Content → List (List String × Content)
  | [], names, content => [(names, content)]
  | (first, old) :: rest, names, content =>
    if first = names then (names, content) :: rest else (first, old) :: setEntry rest names content

def addDirectory (entries : List (List String × Content)) (dir : List String) : List (List String × Content) :=
  if dir.isEmpty || (entries.lookup dir).isSome then entries else entries ++ [(dir, .directory)]

def FileTree.put (t : FileTree) (p : Path) (content : Content) : FileTree :=
  let names := (t.workingDir.resolve p).names
  let above := (List.range names.length).map names.take
  { t with entries := setEntry (above.foldl addDirectory t.entries) names content }

def FileTree.delete (t : FileTree) (p : Path) : Except Fault FileTree := do
  let names ← t.locate p
  return { t with entries := t.entries.filter fun entry => entry.1 != names }

def FileTree.addDirectoryAt (t : FileTree) (p : Path) : Except Fault FileTree :=
  match t.locate p with
  | .ok names => if t.isDirectoryAt names then .ok t else .error (.file .taken)
  | .error (.file .missing) => do
    let above ← t.locate p.parent
    return { t with entries := addDirectory t.entries (above ++ p.names.drop (p.names.length - 1)) }
  | .error fault => .error fault

def FileTree.makeDirectory (t : FileTree) (p : Path) : Except Fault FileTree := do
  match t.locate p with
  | .error (.file .missing) =>
    if _h : p.names = [] then throw (.file .missing)
    else (← t.makeDirectory p.parent).addDirectoryAt p
  | _ => t.addDirectoryAt p
termination_by p.names.length
decreasing_by
  have := List.length_pos_iff.mpr _h
  simp only [Path.parent, List.length_dropLast]
  omega

def FileTree.writeFile (t : FileTree) (p : Path) (bytes : List UInt8) : Except Fault FileTree :=
  match t.locate p with
  | .ok names =>
    if t.isDirectoryAt names then .error (.file .isDirectory)
    else .ok { t with entries := setEntry t.entries names (.file bytes) }
  | .error (.file .missing) => do
    let above ← t.locate p.parent
    return { t with entries := setEntry t.entries (above ++ p.names.drop (p.names.length - 1)) (.file bytes) }
  | .error fault => .error fault

def FileTree.childNames (t : FileTree) (dir : List String) : List String :=
  t.entries.filterMap fun entry =>
    if entry.1.length == dir.length + 1 && dir.isPrefixOf entry.1 then entry.1.getLast? else none

def FileTree.directoriesBelow (t : FileTree) (dir : List String) : List (List String) :=
  [] :: t.entries.filterMap fun entry =>
    if entry.2 == .directory && dir.length < entry.1.length && dir.isPrefixOf entry.1 then
      some (entry.1.drop dir.length)
    else none

end ScenarioRunner.Files
