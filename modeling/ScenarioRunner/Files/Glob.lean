import ScenarioRunner.Files.FileTree
import ScenarioRunner.Text.Lead

/-!
# File patterns

A pattern is a sequence of parts. Two stars stand for any number of directories, a part with wildcards for any one name
that it fits, and any other part for itself. Names are told apart by case.
-/

namespace ScenarioRunner.Files

open ScenarioRunner.Text

set_option autoImplicit false

inductive Member where
  | one (c : Char)
  | between (low high : Char)
deriving DecidableEq

def Member.contains : Member → Char → Bool
  | .one d, c => d == c
  | .between low high, c => low ≤ c && c ≤ high

/-- Ends that are the wrong way round have nothing between them. -/
def Member.isEmpty : Member → Bool
  | .one _ => false
  | .between low high => high < low

structure CharSet where
  members : List Member
  isNegated : Bool
deriving DecidableEq

def CharSet.contains (set : CharSet) (c : Char) : Bool :=
  set.members.any (·.contains c) != set.isNegated

inductive Wildcard where
  | literal (c : Char)
  | anyChar
  | anyText
  | oneOf (set : CharSet)
deriving DecidableEq

/-- A dash between two characters makes them the ends of a range. -/
def membersOf : List Char → List Member
  | [] => []
  | low :: '-' :: high :: rest => .between low high :: membersOf rest
  | c :: rest => .one c :: membersOf rest

/-- A set without its empty members. An exclamation mark that comes first only then negates the set as well, and a dash
after it stands for itself. -/
def CharSet.ofMembers (isNegated : Bool) (members : List Member) : CharSet :=
  let kept := members.filter fun m => !m.isEmpty
  if isNegated then ⟨kept, true⟩
  else
    match kept with
    | .one '!' :: rest => ⟨rest, true⟩
    | .between '!' high :: rest => ⟨.one '-' :: .one high :: rest, true⟩
    | _ => ⟨kept, false⟩

/-- A set whose opening has been read, with the text after it. A bracket that comes first is one of its characters. -/
def readSet? (s : List Char) : Option (CharSet × List Char) :=
  let isNegated := s.head? == some '!'
  let start := if isNegated then s.drop 1 else s
  let first := if start.head? == some ']' then start.take 1 else []
  let body := first ++ (start.drop first.length).takeWhile (· != ']')
  match start.drop body.length with
  | [] => none
  | _ :: rest => some (.ofMembers isNegated (membersOf body), rest)

theorem length_of_readSet? {s rest : List Char} {set : CharSet} (h : readSet? s = some (set, rest)) :
    rest.length < s.length := by
  simp only [readSet?] at h
  split at h
  · simp at h
  · next hDrop =>
    cases h
    have hLength := congrArg List.length hDrop
    simp only [List.length_drop, List.length_cons] at hLength
    have hStart : (if s.head? == some '!' then s.drop 1 else s).length ≤ s.length := by
      split
      · simp
      · exact Nat.le_refl _
    omega

def wildcards : List Char → List Wildcard
  | [] => []
  | c :: s =>
    if c = '*' then .anyText :: wildcards s
    else if c = '?' then .anyChar :: wildcards s
    else if c = '[' then
      match _h : readSet? s with
      | some (set, rest) => .oneOf set :: wildcards rest
      | none => .literal c :: wildcards s
    else .literal c :: wildcards s
termination_by s => s.length
decreasing_by
  · simp
  · simp
  · have := length_of_readSet? _h
    simp only [List.length_cons]
    omega
  · simp
  · simp

def Wildcard.accepts : Wildcard → Char → Bool
  | .literal d, c => d == c
  | .anyChar, _ => true
  | .anyText, _ => true
  | .oneOf set, c => set.contains c

/-- Which ends of a name, the longest first, fit a pattern, given which fit the pattern without its first wildcard. -/
def Wildcard.extend (w : Wildcard) (name : List Char) (fitting : List Bool) : List Bool :=
  if w = .anyText then fitting.foldr (fun fits done => (fits || done.head?.getD false) :: done) []
  else name.zipWith (fun c fits => w.accepts c && fits) (fitting.drop 1) ++ [false]

def fittingEnds (pattern : List Wildcard) (name : List Char) : List Bool :=
  pattern.foldr (fun w fitting => w.extend name fitting) (List.replicate name.length false ++ [true])

def fits (pattern : List Wildcard) (name : List Char) : Bool :=
  (fittingEnds pattern name).head?.getD false

inductive Part where
  | name (text : String)
  | wild (pattern : List Wildcard)
  | directories
  /-- Nothing follows but a slash. -/
  | itself
deriving DecidableEq

def Part.ofText (text : String) : Except Fault Part :=
  if text == "**" then .ok .directories
  else if occursIn ['*', '*'] text.toList then .error .misplacedDoubleStar
  else if text.toList.any ['*', '?', '['].contains then .ok (.wild (wildcards text.toList))
  else .ok (.name text)

def partsOf (text : String) : Except Fault (List Part) :=
  let endsInSlash := text.toList.getLast? == some '/'
  if text.isEmpty then .error .emptyPattern
  else
    match (Path.ofText text).names with
    | [] => .error (if endsInSlash then .patternOnlySlash else .patternWithoutNames)
    | names => do
      let parts ← names.mapM Part.ofText
      return parts ++ if endsInSlash then [.itself] else []

/-- A place in the tree, and the path by which a pattern leads there. -/
structure Place where
  path : Path
  names : List String

def Place.enter (p : Place) (below : List String) : Place :=
  ⟨{ p.path with names := p.path.names ++ below }, p.names ++ below⟩

def Place.follow (p : Place) (name : String) : Place :=
  if name == ".." then { p.enter [name] with names := p.names.dropLast } else p.enter [name]

def Place.isTooLong (p : Place) : Bool :=
  pathLimit < p.path.text.utf8ByteSize

def Place.reached (p : Place) : Except Fault Place :=
  if p.isTooLong then .error (.file .nameTooLong) else .ok p

/-- A name that the system refuses to look up. A name with a null character is not looked up at all. -/
def isTooLong (p : Place) (name : String) : Bool :=
  !name.toList.contains '\x00' && (nameLimit < name.utf8ByteSize || (p.follow name).isTooLong)

/-- The places that a pattern leads to from a directory. Only directories are entered on the way. -/
def FileTree.select (t : FileTree) : List Part → Place → Except Fault (List Place)
  | [], p => return [← p.reached]
  | .itself :: _, p => return [← p.reached]
  | .name text :: rest, p =>
    let next := p.follow text
    if isTooLong p text then .error (.file .nameTooLong)
    else if (t.find? next.names).isSome && (rest.isEmpty || t.isDirectoryAt next.names) then t.select rest next
    else .ok []
  | .wild pattern :: rest, p => do
    let p ← p.reached
    let next := (((t.childNames p.names).filter fun name => fits pattern name.toList).map fun name =>
      p.enter [name]).filter fun next => rest.isEmpty || t.isDirectoryAt next.names
    return (← next.mapM (t.select rest)).flatten
  | .directories :: rest, p => do
    let below ← ((t.directoriesBelow p.names).map p.enter).mapM Place.reached
    return (← below.mapM (t.select rest)).flatten

def FileTree.isFileAt (t : FileTree) (names : List String) : Bool :=
  match t.find? names with
  | some (.file _) => true
  | _ => false

def FileTree.globFrom (t : FileTree) (base : Path) (pattern : String) : Except Fault (List Path) := do
  let parts ← partsOf pattern
  if !(← t.isPresent base) then return []
  let names ← t.locate base
  if !t.isDirectoryAt names then return []
  return ((← t.select parts ⟨base, names⟩).filter fun place => t.isFileAt place.names).map (·.path)

/-- An absolute pattern is followed from the root. -/
def FileTree.glob (t : FileTree) (base : Path) (pattern : String) : Except Fault (List Path) :=
  let path := Path.ofText pattern
  if path.isAbsolute then t.globFrom { root := path.root } (Path.text { names := path.names })
  else t.globFrom base pattern

/-- The files of all patterns, each once, ordered by their parts. -/
def FileTree.globAll (t : FileTree) (base : Path) (patterns : List String) : Except Fault (List Path) := do
  let found ← patterns.mapM (t.glob base)
  return found.flatten.eraseDups.mergeSort fun p q => decide (¬ q.parts < p.parts)

end ScenarioRunner.Files
