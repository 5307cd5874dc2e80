import Mathlib.Data.List.Pairwise
import ScenarioRunner.Proofs.Feature.Nodes

/-!
# Where the nodes of a tree stand

A walk can keep the headers of the suites above each node. Main statements: the children of a feature are scenarios and
outlines with their rows, so that no outline stands inside another, and the nodes of a tree stand on lines of their own,
in the order of the walk.
-/

namespace ScenarioRunner.Feature

set_option autoImplicit false

/-! ## Nodes below others -/

/-- A node with the headers of the suites above it, the root first. -/
structure Placed where
  above : List Header
  node : Node

mutual

def Node.placedUnder (above : List Header) : Node → List Placed
  | .case c => [⟨above, .case c⟩]
  | .suite header children => ⟨above, .suite header children⟩ :: placedAllUnder (above ++ [header]) children

def placedAllUnder (above : List Header) : List Node → List Placed
  | [] => []
  | n :: rest => n.placedUnder above ++ placedAllUnder above rest

end

def Suite.placed (s : Suite) : List Placed :=
  s.node.placedUnder []

def Placed.InOutline (p : Placed) : Prop :=
  ∃ header ∈ p.above, header.isOutline = true

instance (p : Placed) : Decidable p.InOutline :=
  inferInstanceAs (Decidable (∃ header ∈ p.above, _))

mutual

theorem map_node_placedUnder (above : List Header) (n : Node) : (n.placedUnder above).map Placed.node = n.walk := by
  cases n with
  | case c => rfl
  | suite header children =>
    rw [Node.placedUnder, Node.walk, List.map_cons, map_node_placedAllUnder (above ++ [header]) children]

theorem map_node_placedAllUnder (above : List Header) (nodes : List Node) :
    (placedAllUnder above nodes).map Placed.node = walkAll nodes := by
  cases nodes with
  | nil => rfl
  | cons n rest =>
    rw [placedAllUnder, walkAll, List.map_append, map_node_placedUnder above n, map_node_placedAllUnder above rest]

end

theorem Suite.map_node_placed (s : Suite) : s.placed.map Placed.node = s.walk :=
  map_node_placedUnder [] s.node

theorem Suite.node_mem_walk (s : Suite) {p : Placed} (h : p ∈ s.placed) : p.node ∈ s.walk := by
  rw [← s.map_node_placed]
  exact List.mem_map_of_mem h

mutual

theorem above_subset_of_mem {above : List Header} {n : Node} : ∀ p ∈ n.placedUnder above, above ⊆ p.above := by
  cases n with
  | case c =>
    intro p hp
    obtain rfl := List.mem_singleton.mp hp
    exact List.Subset.refl above
  | suite header children =>
    intro p hp
    rcases List.mem_cons.mp hp with rfl | hp
    · exact List.Subset.refl above
    · exact List.Subset.trans (List.subset_append_left above [header]) (above_subset_of_mem_all p hp)

theorem above_subset_of_mem_all {above : List Header} {nodes : List Node} :
    ∀ p ∈ placedAllUnder above nodes, above ⊆ p.above := by
  cases nodes with
  | nil => simp [placedAllUnder]
  | cons n rest =>
    intro p hp
    rcases List.mem_append.mp hp with hp | hp
    · exact above_subset_of_mem p hp
    · exact above_subset_of_mem_all p hp

end

mutual

theorem walk_subset_of_mem {n m : Node} (h : m ∈ n.walk) : m.walk ⊆ n.walk := by
  cases n with
  | case c =>
    obtain rfl := List.mem_singleton.mp h
    exact List.Subset.refl _
  | suite header children =>
    rcases List.mem_cons.mp h with rfl | h
    · exact List.Subset.refl _
    · exact List.subset_cons_of_subset _ (walk_subset_walkAll_of_mem h)

theorem walk_subset_walkAll_of_mem {nodes : List Node} {m : Node} (h : m ∈ walkAll nodes) : m.walk ⊆ walkAll nodes := by
  cases nodes with
  | nil => cases h
  | cons n rest =>
    rw [walkAll] at h ⊢
    rcases List.mem_append.mp h with h | h
    · exact List.subset_append_of_subset_left _ (walk_subset_of_mem h)
    · exact List.subset_append_of_subset_right _ (walk_subset_walkAll_of_mem h)

end

/-! ## The children of a feature -/

/-- What stands right below a feature: a scenario, or an outline with its rows. -/
inductive Node.IsScenario : Node → Prop
  | plain (c : Case) : Node.IsScenario (.case c)
  | outline {header : Header} {rows : List Case} (hOutline : header.isOutline = true)
      (hRows : ∀ row ∈ rows, row.templateName = header.name) : Node.IsScenario (.suite header (rows.map .case))

section

variable {uri : String} {generation : Int}

theorem exists_rows_of_withoutIds {nodes : List Node} {rows : List Case}
    (h : nodes.map Node.withoutIds = rows.map .case) :
    ∃ rows' : List Case, nodes = rows'.map .case ∧ rows'.map Case.withoutId = rows := by
  induction nodes generalizing rows with
  | nil =>
    cases rows with
    | nil => exact ⟨[], rfl, rfl⟩
    | cons row rows => cases h
  | cons n nodes ih =>
    cases rows with
    | nil => cases h
    | cons row rows =>
      obtain ⟨hFirst, hRest⟩ := List.cons.inj h
      obtain ⟨rows', rfl, rfl⟩ := ih hRest
      cases n with
      | case c =>
        cases hFirst
        exact ⟨c :: rows', rfl, rfl⟩
      | suite header children => cases hFirst

theorem Section.exists_of_withoutIds (s : Section) {n : Node} (h : n.withoutIds = s.node uri generation) :
    (s.isOutline = true ∧ ∃ header, ∃ rows : List Case, n = .suite header (rows.map .case) ∧
      header.withoutId = { id := "", name := s.name, uri, span := s.span, generation, isOutline := true } ∧
      rows.map Case.withoutId = s.cases uri generation) ∨
    (s.isOutline = false ∧ ∃ c, n = .case c ∧ c.withoutId =
      { id := "", name := s.name, uri, span := s.span, anchor := s.span.stop, generation, templateName := s.name }) := by
  rw [Section.node] at h
  cases hOutline : s.isOutline with
  | true =>
    rw [hOutline, if_pos rfl] at h
    cases n with
    | case c => cases h
    | suite header children =>
      obtain ⟨hHeader, hChildren⟩ := Node.suite.inj h
      rw [withoutIdsAll_eq_map] at hChildren
      obtain ⟨rows, rfl, hRows⟩ := exists_rows_of_withoutIds hChildren
      exact .inl ⟨rfl, header, rows, rfl, hHeader, hRows⟩
  | false =>
    rw [hOutline, if_neg Bool.false_ne_true] at h
    cases n with
    | case c => exact .inr ⟨rfl, c, rfl, Node.case.inj h⟩
    | suite header children => cases h

theorem Section.isScenario_of_withoutIds (s : Section) {n : Node} (h : n.withoutIds = s.node uri generation) :
    n.IsScenario := by
  rcases s.exists_of_withoutIds h with ⟨-, header, rows, rfl, hHeader, hRows⟩ | ⟨-, c, rfl, -⟩
  · apply Node.IsScenario.outline
    · exact (congrArg Header.isOutline hHeader :)
    · intro row hRow
      have hMem : row.withoutId ∈ s.cases uri generation := by
        rw [← hRows]
        exact List.mem_map_of_mem hRow
      obtain ⟨_, _, _, _, _, hCase⟩ := s.exists_row_of_mem_cases hMem
      exact (congrArg Case.templateName hCase :).trans (congrArg Header.name hHeader).symm
  · exact .plain c

theorem exists_feature_of_lexicalTree? {events : List Event} {suite : Suite}
    (h : lexicalTree? uri generation events = some suite) :
    (∃ e ∈ events, ∃ name, e.kind = .feature name ∧
      suite.header = { id := "", name, uri, span := e.span, generation }) ∧
    suite.children = (sections (afterFeature events)).map (Section.node uri generation) := by
  induction events with
  | nil => cases h
  | cons e rest ih =>
    obtain ⟨line, width, kind⟩ := e
    cases kind with
    | feature name =>
      cases h
      exact ⟨⟨_, List.mem_cons_self, name, rfl, rfl⟩, rfl⟩
    | scenario name isOutline => exact (ih h).imp_left fun ⟨f, hf, hName⟩ => ⟨f, List.mem_cons_of_mem _ hf, hName⟩
    | examples => exact (ih h).imp_left fun ⟨f, hf, hName⟩ => ⟨f, List.mem_cons_of_mem _ hf, hName⟩
    | tableRow cells => exact (ih h).imp_left fun ⟨f, hf, hName⟩ => ⟨f, List.mem_cons_of_mem _ hf, hName⟩

/-- The feature is said by an event, and each of its children by one of the sections after it. -/
theorem exists_feature_of_build {text : String} {suite : Suite} (h : build uri text generation = some suite) :
    (∃ e ∈ scan text, ∃ name, e.kind = .feature name ∧
      suite.header.withoutId = { id := "", name, uri, span := e.span, generation }) ∧
    ∀ n ∈ suite.children, ∃ s ∈ sections (afterFeature (scan text)), n.withoutIds = s.node uri generation := by
  obtain ⟨hFeature, hChildren⟩ := exists_feature_of_lexicalTree? (lexicalTree?_of_build uri generation h)
  refine ⟨hFeature, ?_⟩
  intro n hn
  have hMem : n.withoutIds ∈ suite.withoutIds.children := List.mem_map_of_mem hn
  rw [hChildren] at hMem
  obtain ⟨s, hs, hNode⟩ := List.mem_map.mp hMem
  exact ⟨s, hs, hNode.symm⟩

theorem isScenario_of_mem_children {text : String} {suite : Suite} (h : build uri text generation = some suite) :
    suite.header.isOutline = false ∧ ∀ n ∈ suite.children, n.IsScenario := by
  obtain ⟨⟨e, -, name, -, hHeader⟩, hChildren⟩ := exists_feature_of_build h
  refine ⟨(congrArg Header.isOutline hHeader :), ?_⟩
  intro n hn
  obtain ⟨s, -, hNode⟩ := hChildren n hn
  exact s.isScenario_of_withoutIds hNode

theorem placedAllUnder_cases (above : List Header) (rows : List Case) :
    placedAllUnder above (rows.map .case) = rows.map fun row => ⟨above, .case row⟩ := by
  induction rows with
  | nil => rfl
  | cons row rows ih =>
    rw [List.map_cons, placedAllUnder, ih]
    rfl

theorem mem_placedAllUnder {above : List Header} {nodes : List Node} {p : Placed} :
    p ∈ placedAllUnder above nodes ↔ ∃ n ∈ nodes, p ∈ n.placedUnder above := by
  induction nodes with
  | nil => simp [placedAllUnder]
  | cons n rest ih => simp [placedAllUnder, ih]

inductive Suite.Places (s : Suite) : Placed → Prop
  | root : s.Places ⟨[], s.node⟩
  | scenario {c : Case} (h : .case c ∈ s.children) : s.Places ⟨[s.header], .case c⟩
  | outline {header : Header} {rows : List Case} (h : .suite header (rows.map .case) ∈ s.children)
      (hOutline : header.isOutline = true) : s.Places ⟨[s.header], .suite header (rows.map .case)⟩
  | row {header : Header} {rows : List Case} {row : Case} (h : .suite header (rows.map .case) ∈ s.children)
      (hOutline : header.isOutline = true) (hRow : row ∈ rows) : s.Places ⟨[s.header, header], .case row⟩

theorem places_of_mem_placed {text : String} {suite : Suite} (h : build uri text generation = some suite) {p : Placed}
    (hp : p ∈ suite.placed) : suite.Places p := by
  rcases List.mem_cons.mp hp with rfl | hp
  · exact .root
  obtain ⟨n, hn, hp⟩ := mem_placedAllUnder.mp hp
  cases (isScenario_of_mem_children h).2 n hn with
  | plain c =>
    obtain rfl := List.mem_singleton.mp hp
    exact .scenario hn
  | outline hOutline _ =>
    rcases List.mem_cons.mp hp with rfl | hp
    · exact .outline hn hOutline
    · rw [placedAllUnder_cases] at hp
      obtain ⟨row, hRow, rfl⟩ := List.mem_map.mp hp
      exact .row hn hOutline hRow

theorem passes_of_isUnfiltered {filter : Option String} (h : isUnfiltered filter = true) (name : String) :
    passes filter name = true := by
  cases filter with
  | none => rfl
  | some part =>
    obtain rfl : part = "" := by simpa [isUnfiltered] using h
    exact passes_empty name

theorem containsMatch_outline {header : Header} (hOutline : header.isOutline = true) (rows : List Case)
    (filter : Option String) : Suite.containsMatch ⟨header, rows.map .case⟩ filter = true ↔
      passes filter header.name = true ∨ ∃ row ∈ rows, row.passes filter = true := by
  have hWalk : Suite.walk ⟨header, rows.map .case⟩ = .suite header (rows.map .case) :: rows.map .case := by
    rw [Suite.walk, Suite.node, Node.walk, walkAll_cases]
  rw [Suite.containsMatch, hWalk, List.any_cons, Bool.or_eq_true, Bool.or_eq_true, Node.passes, hOutline,
    Bool.true_and, List.any_map, List.any_eq_true]
  constructor
  · rintro (hUnfiltered | hMatch)
    · exact .inl (passes_of_isUnfiltered hUnfiltered header.name)
    · exact hMatch
  · exact .inr

/-! ## The order of the nodes -/

def Node.span : Node → Span
  | .case c => c.span
  | .suite header _ => header.span

@[simp] theorem Node.span_withoutIds (n : Node) : n.withoutIds.span = n.span := by
  cases n <;> rfl

theorem map_span_filterMap_row?_sublist (events : List Event) :
    ((events.filterMap Event.row?).map Row.span).Sublist (events.map Event.span) := by
  induction events with
  | nil => exact List.Sublist.slnil
  | cons e rest ih =>
    obtain ⟨line, width, kind⟩ := e
    cases kind with
    | tableRow cells => exact List.Sublist.cons_cons _ ih
    | feature name => exact List.Sublist.cons _ ih
    | scenario name isOutline => exact List.Sublist.cons _ ih
    | examples => exact List.Sublist.cons _ ih

theorem map_span_blockCases_sublist (name : String) (anchor : Position) (rows : List Row) :
    ((blockCases uri generation name anchor rows).map Case.span).Sublist (rows.map Row.span) := by
  cases rows with
  | nil => exact List.Sublist.slnil
  | cons first rest =>
    apply List.Sublist.cons
    rw [blockCases, List.map_map]
    exact List.Sublist.refl _

theorem Section.map_span_cases_sublist (s : Section) (hRows : RowsInBlocks false s.body) :
    ((s.cases uri generation).map Case.span).Sublist (s.body.map Event.span) := by
  have hBlocks : ∀ blocks : List (List Row),
      ((blocks.flatMap (blockCases uri generation s.name s.span.stop)).map Case.span).Sublist
        (blocks.flatten.map Row.span) := by
    intro blocks
    induction blocks with
    | nil => exact List.Sublist.slnil
    | cons rows blocks ih =>
      rw [List.flatMap_cons, List.flatten_cons, List.map_append, List.map_append]
      exact (map_span_blockCases_sublist _ _ rows).append ih
  have hAll := hBlocks (rowBlocks s.body)
  rw [flatten_rowBlocks hRows] at hAll
  exact hAll.trans (map_span_filterMap_row?_sublist s.body)

theorem Section.map_span_walk_sublist (s : Section) (hRows : RowsInBlocks false s.body) :
    ((s.node uri generation).walk.map Node.span).Sublist (s.span :: s.body.map Event.span) := by
  rw [Section.node]
  split
  · rw [Node.walk, walkAll_cases, List.map_cons, List.map_map]
    exact (s.map_span_cases_sublist hRows).cons_cons _
  · exact (List.nil_sublist _).cons_cons _

/-- The sections stand behind the events before the first scenario. -/
theorem map_span_sections_sublist {events : List Event} {inExamples : Bool} (hRows : RowsInBlocks inExamples events) :
    ((walkAll ((sections events).map (Section.node uri generation))).map Node.span).Sublist
      ((events.dropWhile fun e => !e.isScenario).map Event.span) := by
  induction events generalizing inExamples with
  | nil => exact List.Sublist.slnil
  | cons e rest ih =>
    obtain ⟨line, width, kind⟩ := e
    cases kind with
    | scenario name isOutline =>
      have hSplit : rest.map Event.span =
          (lead rest).map Event.span ++ (rest.dropWhile fun e => !e.isScenario).map Event.span := by
        rw [← List.map_append, lead, List.takeWhile_append_dropWhile]
      have hBody := rowsInBlocks_body hRows _ List.mem_cons_self
      rw [sections, List.map_cons, walkAll, List.map_append]
      change List.Sublist _ (_ :: rest.map Event.span)
      rw [hSplit, ← List.cons_append]
      exact (Section.map_span_walk_sublist _ hBody).append (ih hRows.2)
    | feature name => exact ih hRows.2
    | examples => exact ih hRows.2
    | tableRow cells => exact ih hRows.2

theorem map_span_lexicalTree?_sublist {events : List Event} {inExamples : Bool}
    (hRows : RowsInBlocks inExamples events) :
    ∀ suite ∈ lexicalTree? uri generation events, (suite.walk.map Node.span).Sublist (events.map Event.span) := by
  induction events generalizing inExamples with
  | nil => simp [lexicalTree?]
  | cons e rest ih =>
    obtain ⟨line, width, kind⟩ := e
    cases kind with
    | feature name =>
      intro suite hSuite
      cases hSuite
      apply List.Sublist.cons_cons
      apply (map_span_sections_sublist hRows.2).trans
      exact (List.dropWhile_sublist _).map Event.span
    | scenario name isOutline => exact fun suite hSuite => (ih hRows.2 suite hSuite).cons _
    | examples => exact fun suite hSuite => (ih hRows.2 suite hSuite).cons _
    | tableRow cells => exact fun suite hSuite => (ih hRows.2 suite hSuite).cons _

theorem map_span_walk_sublist {text : String} {suite : Suite} (h : build uri text generation = some suite) :
    (suite.walk.map Node.span).Sublist ((scan text).map Event.span) := by
  have hTree := lexicalTree?_of_build uri generation h
  have hSublist := map_span_lexicalTree?_sublist (rowsInBlocks_scanLines false 0 _) _ hTree
  rw [Suite.walk_withoutIds, List.map_map] at hSublist
  have hSpan : Node.span ∘ Node.withoutIds = Node.span := funext Node.span_withoutIds
  rwa [hSpan] at hSublist

/-- The nodes of a tree stand on different lines, in the order of the walk. -/
theorem pairwise_line_walk {text : String} {suite : Suite} (h : build uri text generation = some suite) :
    suite.walk.Pairwise fun m n => m.span.start.line < n.span.start.line := by
  have hEvents : ((scan text).map Event.span).Pairwise fun a b => a.start.line < b.start.line :=
    List.pairwise_map.mpr (pairwise_scanLines false 0 _)
  have hWalk := hEvents.sublist (map_span_walk_sublist h)
  rwa [List.pairwise_map] at hWalk

theorem walkAll_eq_flatMap (nodes : List Node) : walkAll nodes = nodes.flatMap Node.walk := by
  induction nodes with
  | nil => rfl
  | cons n rest ih => rw [walkAll, List.flatMap_cons, ih]

theorem mem_walk_self (n : Node) : n ∈ n.walk := by
  cases n with
  | case c => exact List.mem_singleton.mpr rfl
  | suite header children => exact List.mem_cons_self

theorem mem_walk_of_mem {n : Node} {header : Header} {children : List Node} (h : n ∈ children) :
    n ∈ (Node.suite header children).walk :=
  List.mem_cons_of_mem _ (mem_walkAll.mpr ⟨n, h, mem_walk_self n⟩)

theorem pairwise_line_children {text : String} {suite : Suite} (h : build uri text generation = some suite) :
    (∀ n ∈ suite.children, n.walk.Pairwise fun a b => a.span.start.line < b.span.start.line) ∧
      suite.children.Pairwise fun m n => ∀ a ∈ m.walk, ∀ b ∈ n.walk, a.span.start.line < b.span.start.line := by
  have hWalk := pairwise_line_walk h
  rw [Suite.walk, Suite.node, Node.walk, List.pairwise_cons, walkAll_eq_flatMap, List.pairwise_flatMap] at hWalk
  exact hWalk.2

/-- A node stands below one child of the feature only. -/
theorem eq_of_mem_walk {text : String} {suite : Suite} (h : build uri text generation = some suite) {m n a : Node}
    (hm : m ∈ suite.children) (hn : n ∈ suite.children) (hma : a ∈ m.walk) (hna : a ∈ n.walk) : m = n := by
  have hApart : suite.children.Pairwise fun m n => ∀ a ∈ m.walk, a ∉ n.walk := by
    apply (pairwise_line_children h).2.imp
    intro m n hLines a ha hb
    exact Nat.lt_irrefl _ (hLines a ha a hb)
  have : Std.Symm fun m n : Node => ∀ a ∈ m.walk, a ∉ n.walk := ⟨fun m n hDisjoint a hn hm => hDisjoint a hm hn⟩
  by_contra hNe
  exact hApart.forall hm hn hNe a hma hna

end

end ScenarioRunner.Feature
