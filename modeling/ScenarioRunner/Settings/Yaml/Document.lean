import ScenarioRunner.Settings.Shared
import ScenarioRunner.Settings.Yaml.Node
import ScenarioRunner.Settings.Yaml.Number

/-!
# Settings files

A settings file is one document. Its nodes are turned into values level by level: of several faults the one nearest to
the root counts, and of those on one level the first.
-/

namespace ScenarioRunner.Settings.Yaml

set_option autoImplicit false

/-- A key that is written again keeps its place and takes the last value. -/
def putEntry : SharedEntries → Scalar → SharedValue → SharedEntries
  | [], key, v => [(key, v)]
  | (first, old) :: rest, key, v =>
    if first.isSameKey key then (first, v) :: rest else (first, old) :: putEntry rest key v

def Tag.isCollection (t : Tag) : Bool :=
  t == .list || t == .mapping

def Node.scalar? : Node → Except Fault (Option Scalar)
  | .scalar tag text => if tag.isCollection then .ok none else some <$> tag.read text
  | .list tag _ => if tag.isCollection then .ok none else .error .malformedSettings
  | .mapping tag _ _ _ => if tag.isCollection then .ok none else .error .malformedSettings

def fault? {α : Type} : Except Fault α → Option Fault
  | .ok _ => none
  | .error reason => some reason

def entryFault? (entry : Node × Node) : Option Fault :=
  match entry.1.scalar? with
  | .error reason => some reason
  | .ok none => some .malformedSettings
  | .ok (some _) => fault? entry.2.scalar?

/-- The first faults on each level, of two trees side by side. -/
def sideBySide : List (Option Fault) → List (Option Fault) → List (Option Fault)
  | [], levels => levels
  | levels, [] => levels
  | first :: rest, other :: more => first.or other :: sideBySide rest more

mutual

def Node.faults : Node → List (Option Fault)
  | .scalar tag _ => if tag.isCollection then [some .malformedSettings] else []
  | .list tag items =>
    if tag == .list then items.findSome? (fun n => fault? n.scalar?) :: itemFaults items
    else if tag == .mapping then [some .malformedSettings]
    else []
  | .mapping tag _ entries isSound =>
    if tag == .mapping then
      (if isSound then entries.findSome? entryFault? else some .malformedSettings) :: entryFaults entries
    else if tag == .list then [some .malformedSettings]
    else []

def itemFaults : List Node → List (Option Fault)
  | [] => []
  | n :: rest => sideBySide n.faults (itemFaults rest)

def entryFaults : List (Node × Node) → List (Option Fault)
  | [] => []
  | (_, n) :: rest => sideBySide n.faults (entryFaults rest)

end

def Node.scalarD (n : Node) : Scalar :=
  match n.scalar? with
  | .ok (some s) => s
  | _ => .null

mutual

def Node.value : Node → SharedValue
  | .scalar tag text => .scalar (Node.scalar tag text).scalarD
  | .list _ items => .list (itemValues items)
  | .mapping _ number entries _ =>
    .mapping number ((entryValues entries).foldl (fun all entry => putEntry all entry.1 entry.2) [])

def itemValues : List Node → List SharedValue
  | [] => []
  | n :: rest => n.value :: itemValues rest

def entryValues : List (Node × Node) → SharedEntries
  | [] => []
  | (key, n) :: rest => (key.scalarD, n.value) :: entryValues rest

end

def Node.read (n : Node) : Except Fault SharedValue := do
  match ← n.scalar? with
  | some s => return .scalar s
  | none =>
    match n.faults.findSome? id with
    | some reason => throw reason
    | none => return n.value

def isAllowed (c : Char) : Bool :=
  let n := c.toNat
  n == 9 || n == 10 || n == 13 || (32 ≤ n && n ≤ 126) || n == 0x85 || (0xA0 ≤ n && n != 0xFFFE && n != 0xFFFF)

def readDocument (s : List Char) : Except Fault SharedValue := do
  if !s.all isAllowed then throw .malformedSettings
  match ← Node.ofTokens? (tokens (marks s)) with
  | none => return .scalar .null
  | some n => n.read

end ScenarioRunner.Settings.Yaml
