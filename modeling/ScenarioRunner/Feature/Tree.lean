import ScenarioRunner.Fault
import ScenarioRunner.Feature.Position
import ScenarioRunner.Text.Lead

/-!
# Test trees

A tree has a feature at its root; its children are scenarios and scenario outlines, and the children of an outline
are the rows of its examples. Scenarios and rows are cases, which can be run; features and outlines are suites.
-/

namespace ScenarioRunner.Feature

open ScenarioRunner.Text

set_option autoImplicit false

/-- A scenario or one row of examples. Failures are reported from the anchor down. -/
structure Case where
  id : String
  name : String
  uri : String
  span : Span
  anchor : Position
  generation : Int
  isOutline : Bool := false
  templateName : String
deriving DecidableEq, Repr

structure Header where
  id : String
  name : String
  uri : String
  span : Span
  generation : Int
  isOutline : Bool := false
deriving DecidableEq, Repr

inductive Node where
  | case (c : Case)
  | suite (header : Header) (children : List Node)

structure Suite where
  header : Header
  children : List Node

def Suite.node (s : Suite) : Node :=
  .suite s.header s.children

def Node.id : Node → String
  | .case c => c.id
  | .suite header _ => header.id

mutual

def Node.walk : Node → List Node
  | .case c => [.case c]
  | .suite header children => .suite header children :: walkAll children

def walkAll : List Node → List Node
  | [] => []
  | n :: rest => n.walk ++ walkAll rest

end

def Node.case? : Node → Option Case
  | .case c => some c
  | .suite _ _ => none

def Suite.walk (s : Suite) : List Node :=
  s.node.walk

def Suite.cases (s : Suite) : List Case :=
  s.walk.filterMap Node.case?

/-- A filter that is missing or empty lets every name pass. -/
def passes (filter : Option String) (name : String) : Bool :=
  match filter with
  | none => true
  | some part => occursIn part.toList name.toList

theorem passes_eq_true_iff (filter : Option String) (name : String) :
    passes filter name = true ↔ ∀ part ∈ filter, part.toList <:+: name.toList := by
  cases filter with
  | none => simp [passes]
  | some part => simp [passes, occursIn_eq_true_iff]

theorem passes_empty (name : String) : passes (some "") name = true := by
  simp [passes_eq_true_iff]

/-- A row also passes by the name of its outline. -/
def Case.passes (c : Case) (filter : Option String) : Bool :=
  Feature.passes filter c.name || Feature.passes filter c.templateName

theorem Case.passes_eq_true_iff (c : Case) (filter : Option String) :
    c.passes filter = true ↔
      ∀ part ∈ filter, part.toList <:+: c.name.toList ∨ part.toList <:+: c.templateName.toList := by
  cases filter with
  | none => simp [Case.passes, Feature.passes]
  | some part => simp [Case.passes, Feature.passes_eq_true_iff]

def Node.passes (filter : Option String) : Node → Bool
  | .case c => c.passes filter
  | .suite header _ => header.isOutline && Feature.passes filter header.name

def isUnfiltered (filter : Option String) : Bool :=
  filter.all String.isEmpty

/-- Without a filter every suite counts; with one, some case or outline has to pass. -/
def Suite.containsMatch (s : Suite) (filter : Option String) : Bool :=
  isUnfiltered filter || s.walk.any (Node.passes filter)

/-- The case that stands for all rows of an outline. It is not part of the tree. -/
def Header.outlineCase (h : Header) : Except Fault Case :=
  if h.isOutline then
    .ok { id := h.id, name := h.name, uri := h.uri, span := h.span, anchor := h.span.stop,
          generation := h.generation, isOutline := true, templateName := h.name }
  else .error (.notOutline h.name)

/-- The case of an outline is known by the outline, and its problems are shown from the end of the outline on. -/
theorem Header.exists_outlineCase {h : Header} (hOutline : h.isOutline = true) :
    ∃ c, h.outlineCase = .ok c ∧ c.id = h.id ∧ c.name = h.name ∧ c.uri = h.uri ∧ c.span = h.span ∧
      c.anchor = h.span.stop ∧ c.generation = h.generation ∧ c.isOutline = true ∧ c.templateName = h.name := by
  rw [Header.outlineCase, if_pos hOutline]
  exact ⟨_, rfl, rfl, rfl, rfl, rfl, rfl, rfl, rfl, rfl⟩

/-- The step that failed, counted down from the line after the anchor. -/
def Case.failureLocation (c : Case) (stepsPassed : Option Int) : Location :=
  ⟨c.anchor.line + (stepsPassed.getD 0 + 1), c.anchor.character⟩

def describeLine (indent : Int) (label name : String) (span : Span) : String :=
  String.ofList (List.replicate (2 * indent).toNat ' ') ++ label ++ ": " ++ name ++ " (line " ++
    toString (span.start.line + 1) ++ ")"

mutual

def Node.describe (indent : Int) : Node → List String
  | .case c => [describeLine indent "Scenario" c.name c.span]
  | .suite header children =>
    describeLine indent (if header.isOutline then "Scenario Outline" else "Feature") header.name header.span ::
      describeAll (indent + 1) children

def describeAll (indent : Int) : List Node → List String
  | [] => []
  | n :: rest => n.describe indent ++ describeAll indent rest

end

def Suite.describe (s : Suite) (indent : Int) : List String :=
  s.node.describe indent

end ScenarioRunner.Feature
