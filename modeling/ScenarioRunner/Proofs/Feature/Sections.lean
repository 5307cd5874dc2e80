import Mathlib.Algebra.GroupWithZero.Nat
import Mathlib.Tactic.Common
import ScenarioRunner.Feature.Tree
import ScenarioRunner.Feature.Event
import ScenarioRunner.Feature.Placeholder

/-!
# The sections of a feature file

The headers of the scenarios cut the events of a file into sections, and the headers of the examples cut the rows of a
section into blocks. Main statements: the events stand in the order of their lines, every row stands in a block, and an
outline has one row less than each of its blocks.
-/

namespace ScenarioRunner.Feature

open ScenarioRunner.Text

set_option autoImplicit false

structure Row where
  span : Span
  cells : List String
deriving DecidableEq

def Event.row? (e : Event) : Option Row :=
  match e.kind with
  | .tableRow cells => some ⟨e.span, cells⟩
  | _ => none

def Event.featureName? (e : Event) : Option String :=
  match e.kind with
  | .feature name => some name
  | _ => none

def Event.isScenario (e : Event) : Bool :=
  match e.kind with
  | .scenario _ _ => true
  | _ => false

def lead (events : List Event) : List Event :=
  events.takeWhile fun e => !e.isScenario

def leadingRows : List Event → List Row
  | [] => []
  | e :: rest =>
    match e.row? with
    | some row => row :: leadingRows rest
    | none => []

def rowBlocks : List Event → List (List Row)
  | [] => []
  | e :: rest =>
    match e.kind with
    | .examples => leadingRows rest :: rowBlocks rest
    | _ => rowBlocks rest

structure Section where
  span : Span
  name : String
  isOutline : Bool
  body : List Event
deriving DecidableEq

def sections : List Event → List Section
  | [] => []
  | e :: rest =>
    match e.kind with
    | .scenario name isOutline => ⟨e.span, name, isOutline, lead rest⟩ :: sections rest
    | _ => sections rest

def afterFeature : List Event → List Event
  | [] => []
  | e :: rest =>
    match e.kind with
    | .feature _ => rest
    | _ => afterFeature rest

/-! ## Nodes -/

section

variable (uri : String) (generation : Int)

/-- A row of an outline, named after its cells and the cells of the first row of its block. -/
def rowCase (name : String) (anchor : Position) (columns : List String) (row : Row) : Case where
  id := ""
  name := substitute name columns row.cells
  uri := uri
  span := row.span
  anchor := anchor
  generation := generation
  templateName := name

def blockCases (name : String) (anchor : Position) : List Row → List Case
  | [] => []
  | first :: rest => rest.map (rowCase uri generation name anchor first.cells)

def Section.cases (s : Section) : List Case :=
  (rowBlocks s.body).flatMap (blockCases uri generation s.name s.span.stop)

def Section.node (s : Section) : Node :=
  if s.isOutline then
    .suite { id := "", name := s.name, uri, span := s.span, generation, isOutline := true }
      ((s.cases uri generation).map .case)
  else
    .case { id := "", name := s.name, uri, span := s.span, anchor := s.span.stop, generation, templateName := s.name }

/-- The tree of the events, without ids. -/
def lexicalTree? : List Event → Option Suite
  | [] => none
  | e :: rest =>
    match e.kind with
    | .feature name =>
      some ⟨{ id := "", name, uri, span := e.span, generation }, (sections rest).map (Section.node uri generation)⟩
    | _ => lexicalTree? rest

end

def Case.withoutId (c : Case) : Case :=
  { c with id := "" }

def Header.withoutId (h : Header) : Header :=
  { h with id := "" }

mutual

def Node.withoutIds : Node → Node
  | .case c => .case c.withoutId
  | .suite header children => .suite header.withoutId (withoutIdsAll children)

def withoutIdsAll : List Node → List Node
  | [] => []
  | n :: rest => n.withoutIds :: withoutIdsAll rest

end

theorem withoutIdsAll_eq_map (nodes : List Node) : withoutIdsAll nodes = nodes.map Node.withoutIds := by
  induction nodes with
  | nil => rfl
  | cons n rest ih => rw [withoutIdsAll, List.map_cons, ih]

def Suite.withoutIds (s : Suite) : Suite :=
  ⟨s.header.withoutId, s.children.map Node.withoutIds⟩

def Node.children : Node → List Node
  | .case _ => []
  | .suite _ children => children

/-! ## Rows stand in blocks -/

def RowsInBlocks : Bool → List Event → Prop
  | _, [] => True
  | inExamples, e :: rest => (e.row?.isSome = true → inExamples = true) ∧ RowsInBlocks e.kind.keepsExamples rest

theorem inExamples_of_ofLine?_tableRow {inExamples : Bool} {line : List Char} {cells : List String}
    (h : EventKind.ofLine? inExamples line = some (.tableRow cells)) : inExamples = true := by
  simp only [EventKind.ofLine?] at h
  split at h
  · cases h
  split at h
  · cases h
  split at h
  · cases h
  split_ifs at h with hExamples hOpen
  · cases h
  · exact hOpen

theorem rowsInBlocks_scanLines (inExamples : Bool) (number : Nat) (lines : List (List Char)) :
    RowsInBlocks inExamples (scanLines inExamples number lines) := by
  induction lines generalizing inExamples number with
  | nil => trivial
  | cons raw lines ih =>
    rw [scanLines]
    split
    · exact ih inExamples (number + 1)
    · next kind hKind =>
      refine ⟨?_, ih kind.keepsExamples (number + 1)⟩
      intro hRow
      cases kind with
      | tableRow cells => exact inExamples_of_ofLine?_tableRow hKind
      | feature name => cases hRow
      | scenario name isOutline => cases hRow
      | examples => cases hRow

theorem leadingRows_eq_nil {events : List Event} (h : RowsInBlocks false events) : leadingRows events = [] := by
  cases events with
  | nil => rfl
  | cons e rest =>
    rw [leadingRows]
    cases hRow : e.row? with
    | none => rfl
    | some row =>
      have hOpen := h.1 (by rw [hRow]; rfl)
      cases hOpen

theorem leadingRows_lead (events : List Event) : leadingRows (lead events) = leadingRows events := by
  induction events with
  | nil => rfl
  | cons e rest ih =>
    obtain ⟨line, width, kind⟩ := e
    cases kind with
    | tableRow cells =>
      change _ :: leadingRows (lead rest) = _ :: leadingRows rest
      rw [ih]
    | feature name => rfl
    | scenario name isOutline => rfl
    | examples => rfl

theorem RowsInBlocks.lead {inExamples : Bool} {events : List Event} (h : RowsInBlocks inExamples events) :
    RowsInBlocks inExamples (lead events) := by
  induction events generalizing inExamples with
  | nil => trivial
  | cons e rest ih =>
    rw [Feature.lead, List.takeWhile_cons]
    split
    · exact ⟨h.1, ih h.2⟩
    · trivial

theorem rowsInBlocks_body {inExamples : Bool} {events : List Event} (h : RowsInBlocks inExamples events) :
    ∀ s ∈ sections events, RowsInBlocks false s.body := by
  induction events generalizing inExamples with
  | nil => simp [sections]
  | cons e rest ih =>
    obtain ⟨line, width, kind⟩ := e
    cases kind with
    | scenario name isOutline =>
      intro s hs
      rcases List.mem_cons.mp hs with rfl | hs
      · exact RowsInBlocks.lead h.2
      · exact ih h.2 s hs
    | feature name => exact ih h.2
    | examples => exact ih h.2
    | tableRow cells => exact ih h.2

theorem rowsInBlocks_afterFeature {inExamples : Bool} {events : List Event} (h : RowsInBlocks inExamples events) :
    RowsInBlocks false (afterFeature events) := by
  induction events generalizing inExamples with
  | nil => trivial
  | cons e rest ih =>
    obtain ⟨line, width, kind⟩ := e
    cases kind with
    | feature name => exact h.2
    | scenario name isOutline => exact ih h.2
    | examples => exact ih h.2
    | tableRow cells => exact ih h.2

/-- The blocks have all rows, apart from those that continue a block from before. -/
theorem leadingRows_append_flatten_rowBlocks {inExamples : Bool} {events : List Event}
    (h : RowsInBlocks inExamples events) :
    leadingRows events ++ (rowBlocks events).flatten = events.filterMap Event.row? := by
  induction events generalizing inExamples with
  | nil => rfl
  | cons e rest ih =>
    obtain ⟨line, width, kind⟩ := e
    have hRest := ih h.2
    cases kind with
    | tableRow cells =>
      change _ :: (leadingRows rest ++ (rowBlocks rest).flatten) = _ :: rest.filterMap Event.row?
      rw [hRest]
    | examples => exact hRest
    | feature name =>
      rw [leadingRows_eq_nil h.2] at hRest
      exact hRest
    | scenario name isOutline =>
      rw [leadingRows_eq_nil h.2] at hRest
      exact hRest

theorem flatten_rowBlocks {events : List Event} (h : RowsInBlocks false events) :
    (rowBlocks events).flatten = events.filterMap Event.row? := by
  rw [← leadingRows_append_flatten_rowBlocks h, leadingRows_eq_nil h, List.nil_append]

theorem Section.exists_row_of_mem_cases {uri : String} {generation : Int} (s : Section) {c : Case}
    (h : c ∈ s.cases uri generation) :
    ∃ rows ∈ rowBlocks s.body, ∃ row ∈ rows, ∃ columns,
      c = rowCase uri generation s.name s.span.stop columns row := by
  obtain ⟨rows, hRows, hCase⟩ := List.mem_flatMap.mp h
  cases rows with
  | nil => cases hCase
  | cons first rest =>
    obtain ⟨row, hRow, rfl⟩ := List.mem_map.mp hCase
    exact ⟨first :: rest, hRows, row, List.mem_cons_of_mem first hRow, first.cells, rfl⟩

/-! ## The order of the events -/

theorem line_of_mem_scanLines {inExamples : Bool} {number : Nat} {lines : List (List Char)} :
    ∀ e ∈ scanLines inExamples number lines, number ≤ e.line := by
  induction lines generalizing inExamples number with
  | nil => simp [scanLines]
  | cons raw lines ih =>
    intro e he
    rw [scanLines] at he
    split at he
    · exact Nat.le_of_succ_le (ih e he)
    · rcases List.mem_cons.mp he with rfl | he
      · exact Nat.le_refl _
      · exact Nat.le_of_succ_le (ih e he)

/-- A line gives one event at most, and the events stand in the order of their lines. -/
theorem pairwise_scanLines (inExamples : Bool) (number : Nat) (lines : List (List Char)) :
    (scanLines inExamples number lines).Pairwise fun e f => e.line < f.line := by
  induction lines generalizing inExamples number with
  | nil => exact List.Pairwise.nil
  | cons raw lines ih =>
    rw [scanLines]
    split
    · exact ih inExamples (number + 1)
    · next kind _ =>
      apply List.Pairwise.cons
      · intro e he
        exact line_of_mem_scanLines e he
      · exact ih kind.keepsExamples (number + 1)

/-! ## Counting the rows -/

theorem length_blockCases (uri : String) (generation : Int) (name : String) (anchor : Position) (rows : List Row) :
    (blockCases uri generation name anchor rows).length = rows.length - 1 := by
  cases rows with
  | nil => rfl
  | cons first rest => simp [blockCases]

theorem Section.length_children_node (uri : String) (generation : Int) (s : Section) :
    (s.node uri generation).children.length =
      if s.isOutline then ((rowBlocks s.body).map fun rows => rows.length - 1).sum else 0 := by
  rw [Section.node]
  split
  · simp [Node.children, Section.cases, List.length_flatMap, length_blockCases]
  · rfl

end ScenarioRunner.Feature
