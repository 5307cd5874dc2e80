import ScenarioRunner.Settings.Yaml.Tag
import ScenarioRunner.Settings.Yaml.Token

/-!
# Nodes

A file is one document, and a document is a tree of nodes: scalars, lists and mappings with their tags. Inside brackets
and outside of them the same nodes are written in different ways. A node with an anchor may stand at other places as
well. Entries that a mapping takes over from others come before its own. How far lists and mappings may be inside each
other is limited.
-/

namespace ScenarioRunner.Settings.Yaml

open ScenarioRunner.Text

set_option autoImplicit false

inductive Node where
  | scalar (tag : Tag) (text : List CodePoint)
  | list (tag : Tag) (items : List Node)
  /-- Each mapping that is written has a number of its own. The flag is false if something other than mappings was to be
  taken over. -/
  | mapping (tag : Tag) (number : Nat) (entries : List (Node × Node)) (isSound : Bool)

abbrev NodeEntries := List (Node × Node)

def Node.tag : Node → Tag
  | .scalar tag _ => tag
  | .list tag _ => tag
  | .mapping tag _ _ _ => tag

def soundEntries? : Node → Option NodeEntries
  | .mapping _ _ entries isSound => if isSound then some entries else none
  | _ => none

/-- The entries of the mapping or mappings that are to be taken over. Of several mappings the first one wins, so that it
comes last. -/
def takenOver? : Node → Option NodeEntries
  | .list _ items => (items.reverse.mapM soundEntries?).map List.flatten
  | n => soundEntries? n

/-- A key that would mean a default is its own text. -/
def plainKey : Node → Node
  | .scalar .defaultValue text => .scalar .text text
  | n => n

def Node.ofEntries (tag : Tag) (number : Nat) (entries : NodeEntries) : Node :=
  let (taking, own) := entries.partition fun entry => entry.1.tag == .merge
  let taken := taking.map fun entry => takenOver? entry.2
  let own := own.map fun entry => (plainKey entry.1, entry.2)
  .mapping tag number ((taken.map (·.getD [])).flatten ++ own) (taken.all Option.isSome)

/-- What has been read before a place. A node that is still open has its anchor, but is no node yet. -/
structure Reading where
  tokens : List Token
  anchors : List (List Char × Option Node) := []
  handles : List (List Char × List Char) := []
  /-- How many lists and mappings are open. -/
  depth : Nat := 0
  /-- How many mappings have been begun. -/
  mappings : Nat := 0

abbrev NodeReader := StateT Reading (Except Fault)

def nextToken : NodeReader Token := do
  match (← get).tokens with
  | [] => throw .malformedSettings
  | .unreadable reason :: _ => throw reason
  | t :: _ => return t

def skipToken : NodeReader Unit :=
  modify fun r => { r with tokens := r.tokens.drop 1 }

/-- How many lists and mappings may be inside each other. There is no such number in the language of the files: it is what
one interpreter with its usual bound on calls was found to take. -/
def measuredNestingLimit : Nat := 489

def nested {α : Type} (read : NodeReader α) : NodeReader α := do
  let depth := (← get).depth
  if measuredNestingLimit ≤ depth then throw .nestedTooDeep
  modify fun r => { r with depth := depth + 1 }
  let found ← read
  modify fun r => { r with depth }
  return found

def readMapping (tag : Tag) (read : NodeReader NodeEntries) : NodeReader Node := do
  let number := (← get).mappings
  modify fun r => { r with mappings := number + 1 }
  return Node.ofEntries tag number (← nested read)

structure Properties where
  anchor : Option (List Char) := none
  tag : Option (Option (List Char) × List Char) := none

def readProperties : NodeReader Properties := do
  match ← nextToken with
  | .anchor name =>
    skipToken
    match ← nextToken with
    | .tag handle suffix =>
      skipToken
      return ⟨some name, some (handle, suffix)⟩
    | _ => return ⟨some name, none⟩
  | .tag handle suffix =>
    skipToken
    match ← nextToken with
    | .anchor name =>
      skipToken
      return ⟨some name, some (handle, suffix)⟩
    | _ => return ⟨none, some (handle, suffix)⟩
  | _ => return {}

def fullTag (p : Properties) : NodeReader (Option (List Char)) := do
  match p.tag with
  | none => return none
  | some (none, suffix) => return some suffix
  | some (some handle, suffix) =>
    match (← get).handles.lookup handle with
    | some lead => return some (lead ++ suffix)
    | none => throw .malformedSettings

def isUnspecific (name : Option (List Char)) : Bool :=
  name == none || name == some ['!']

def tagOr (name : Option (List Char)) (unnamed : Tag) : Tag :=
  if isUnspecific name then unnamed else Tag.ofName (String.ofList (name.getD []))

/-- An anchor may be given only once. -/
def openAnchor (p : Properties) : NodeReader Unit := do
  match p.anchor with
  | none => return
  | some name =>
    if ((← get).anchors.lookup name).isSome then throw .malformedSettings
    modify fun r => { r with anchors := (name, none) :: r.anchors }

def closeAnchor (p : Properties) (n : Node) : NodeReader Unit :=
  match p.anchor with
  | none => return
  | some name => modify fun r => { r with anchors := (name, some n) :: r.anchors }

/-- The node of an anchor. Nodes are trees here, so that one that would hold itself is refused like one without end, also
where nobody would have followed it. -/
def anchored (name : List Char) : NodeReader Node := do
  match (← get).anchors.lookup name with
  | some (some n) => return n
  | some none => throw .nestedTooDeep
  | none => throw .malformedSettings

def emptyNode : Node :=
  .scalar .null []

/-- Where a node stands: outside of brackets, there possibly as the value of a key, or in brackets. -/
inductive Position where
  | block
  | blockValue
  | flow
deriving DecidableEq

def Position.endsEntry : Position → Token → Bool
  | .flow, .value => true
  | .flow, .comma => true
  | .flow, .flowListEnd => true
  | .flow, .flowMappingEnd => true
  | .flow, _ => false
  | _, .key => true
  | _, .value => true
  | _, .blockEnd => true
  | _, _ => false

mutual

/-- A node, or its anchor. Each step goes one level down or one token on. -/
def readNode (place : Position) : Nat → NodeReader Node
  | 0 => throw .malformedSettings
  | steps + 1 => do
    match ← nextToken with
    | .alias name =>
      skipToken
      anchored name
    | _ =>
      let properties ← readProperties
      let name ← fullTag properties
      let token ← nextToken
      openAnchor properties
      let n ← readContent place properties name token steps
      closeAnchor properties n
      return n

/-- A node after its properties. A node that has properties may be empty. -/
def readContent (place : Position) (properties : Properties) (name : Option (List Char)) (token : Token) :
    Nat → NodeReader Node
  | 0 => throw .malformedSettings
  | steps + 1 => do
    match token, place with
    | .scalar text isPlain, _ =>
      skipToken
      let isBare := isPlain && name.isNone || name == some ['!']
      return .scalar (tagOr name (if isBare then Tag.ofPlain (joined text) else .text)) text
    | .flowListStart, _ =>
      skipToken
      return .list (tagOr name .list) (← nested (readFlowItems steps true []))
    | .flowMappingStart, _ =>
      skipToken
      readMapping (tagOr name .mapping) (readFlowEntries steps true [])
    | .dash, .blockValue => return .list (tagOr name .list) (← nested (readLevelItems steps []))
    | .blockListStart, .block | .blockListStart, .blockValue =>
      skipToken
      return .list (tagOr name .list) (← nested (readBlockItems steps []))
    | .blockMappingStart, .block | .blockMappingStart, .blockValue =>
      skipToken
      readMapping (tagOr name .mapping) (readBlockEntries steps [])
    | _, _ =>
      if properties.anchor.isNone && properties.tag.isNone then throw .malformedSettings
      return .scalar (tagOr name .null) []

def readBlockItems : Nat → List Node → NodeReader (List Node)
  | 0, _ => throw .malformedSettings
  | steps + 1, items => do
    match ← nextToken with
    | .dash =>
      skipToken
      match ← nextToken with
      | .dash | .blockEnd => readBlockItems steps (emptyNode :: items)
      | _ => readBlockItems steps ((← readNode .block steps) :: items)
    | .blockEnd =>
      skipToken
      return items.reverse
    | _ => throw .malformedSettings

def readLevelItems : Nat → List Node → NodeReader (List Node)
  | 0, _ => throw .malformedSettings
  | steps + 1, items => do
    match ← nextToken with
    | .dash =>
      skipToken
      match ← nextToken with
      | .dash | .key | .value | .blockEnd => readLevelItems steps (emptyNode :: items)
      | _ => readLevelItems steps ((← readNode .block steps) :: items)
    | _ => return items.reverse

def readBlockEntries : Nat → NodeEntries → NodeReader NodeEntries
  | 0, _ => throw .malformedSettings
  | steps + 1, entries => do
    match ← nextToken with
    | .key =>
      skipToken
      let entry ← readEntry .blockValue steps
      readBlockEntries steps (entry :: entries)
    | .blockEnd =>
      skipToken
      return entries.reverse
    | _ => throw .malformedSettings

def readEntry (place : Position) : Nat → NodeReader (Node × Node)
  | 0 => throw .malformedSettings
  | steps + 1 => do
    let key ← if place.endsEntry (← nextToken) then pure emptyNode else readNode place steps
    match ← nextToken with
    | .value =>
      skipToken
      if place.endsEntry (← nextToken) then return (key, emptyNode) else return (key, ← readNode place steps)
    | _ => return (key, emptyNode)

/-- The items of a list in brackets. An item may be a single entry of a mapping. -/
def readFlowItems : Nat → Bool → List Node → NodeReader (List Node)
  | 0, _, _ => throw .malformedSettings
  | steps + 1, isFirst, items => do
    match ← nextToken with
    | .flowListEnd =>
      skipToken
      return items.reverse
    | token =>
      if !isFirst then
        if token = .comma then skipToken else throw .malformedSettings
      match ← nextToken with
      | .key =>
        skipToken
        let n ← readMapping .mapping (List.singleton <$> readEntry .flow steps)
        readFlowItems steps false (n :: items)
      | .flowListEnd =>
        skipToken
        return items.reverse
      | _ => readFlowItems steps false ((← readNode .flow steps) :: items)

def readFlowEntries : Nat → Bool → NodeEntries → NodeReader NodeEntries
  | 0, _, _ => throw .malformedSettings
  | steps + 1, isFirst, entries => do
    match ← nextToken with
    | .flowMappingEnd =>
      skipToken
      return entries.reverse
    | token =>
      if !isFirst then
        if token = .comma then skipToken else throw .malformedSettings
      match ← nextToken with
      | .key =>
        skipToken
        let entry ← readEntry .flow steps
        readFlowEntries steps false (entry :: entries)
      | .flowMappingEnd =>
        skipToken
        return entries.reverse
      | _ => readFlowEntries steps false ((← readNode .flow steps, emptyNode) :: entries)

end

def standardHandles : List (List Char × List Char) :=
  [(['!'], ['!']), (['!', '!'], standardLead.toList)]

/-- The directives before a document. A version is given once and starts with one; a handle is given once. -/
def readDirectives : Nat → Bool → List (List Char × List Char) → NodeReader (List (List Char × List Char))
  | 0, _, _ => throw .malformedSettings
  | steps + 1, hasVersion, handles => do
    match ← nextToken with
    | .directive (.version major) =>
      skipToken
      if hasVersion || major != 1 then throw .malformedSettings
      readDirectives steps true handles
    | .directive (.tagHandle handle lead) =>
      skipToken
      if (handles.lookup handle).isSome then throw .malformedSettings
      readDirectives steps hasVersion ((handle, lead) :: handles)
    | .directive .other =>
      skipToken
      readDirectives steps hasVersion handles
    | _ => return handles

def skipDocumentEnds : Nat → NodeReader Unit
  | 0 => throw .malformedSettings
  | steps + 1 => do
    if (← nextToken) = .documentEnd then
      skipToken
      skipDocumentEnds steps

def readDocumentNode (steps : Nat) : NodeReader Node := do
  match ← nextToken with
  | .directive _ | .documentStart | .documentEnd | .streamEnd => return emptyNode
  | _ => readNode .block steps

def readMarkedDocument (steps : Nat) : NodeReader Node := do
  let handles ← readDirectives steps false []
  if (← nextToken) ≠ .documentStart then throw .malformedSettings
  skipToken
  modify fun r => { r with handles := handles ++ standardHandles }
  readDocumentNode steps

def readFile (steps : Nat) : NodeReader (Option Node) := do
  let n ← match ← nextToken with
    | .streamEnd => return none
    | .directive _ | .documentStart => readMarkedDocument steps
    | _ => readNode .block steps
  skipDocumentEnds steps
  if (← nextToken) = .streamEnd then return some n
  let _ ← readMarkedDocument steps
  throw .malformedSettings

def Node.ofTokens? (tokens : List Token) : Except Fault (Option Node) := do
  let (found, _) ← (readFile (4 * tokens.length + 8)).run { tokens, handles := standardHandles }
  return found

end ScenarioRunner.Settings.Yaml
