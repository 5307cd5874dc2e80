import ScenarioRunner.Proofs.Feature.LineGrammar
import ScenarioRunner.Proofs.Feature.Placement

/-!
# The places of the nodes in their text

A tree is read back against the lines of its text. Main statement: every node spans the line that says it, the rows of an
outline stand between its line and that of its next sibling, and each case is anchored at the end of the line of its
scenario.
-/

namespace ScenarioRunner.Feature

open ScenarioRunner.Text

set_option autoImplicit false

def LineSays (text : String) (number : Nat) (kind : EventKind) : Prop :=
  ∃ raw, (pieces '\n' text.toList)[number]? = some raw ∧
    LineReads (InExamples (scan text) number) (dropTrailing (· == '\r') raw) kind

/-- From the start of the line to its end, carriage returns left out. -/
def IsWholeLine (text : String) (span : Span) : Prop :=
  ∃ raw, (pieces '\n' text.toList)[span.start.line]? = some raw ∧
    span = ⟨⟨span.start.line, 0⟩, ⟨span.start.line, (dropTrailing (· == '\r') raw).length⟩⟩

structure Case.IsRowOf (text : String) (header : Header) (row : Case) : Prop where
  said : ∃ cells, LineSays text row.span.start.line (.tableRow cells)
  after : header.span.start.line < row.span.start.line
  anchor : row.anchor = header.span.stop
  templateName : row.templateName = header.name
  isOutline : row.isOutline = false

inductive Node.StandsBefore (text : String) (next : Option Node) : Node → Prop
  | plain {c : Case} (hSays : LineSays text c.span.start.line (.scenario c.name false))
      (hAnchor : c.anchor = c.span.stop) : Node.StandsBefore text next (.case c)
  | outline {header : Header} {rows : List Case} (hOutline : header.isOutline = true)
      (hSays : LineSays text header.span.start.line (.scenario header.name true))
      (hRows : ∀ row ∈ rows, row.IsRowOf text header ∧ ∀ n ∈ next, row.span.start.line < n.span.start.line) :
      Node.StandsBefore text next (.suite header (rows.map .case))

structure Suite.IsPlacedIn (text : String) (s : Suite) : Prop where
  increasing : s.walk.Pairwise fun m n => m.span.start.line < n.span.start.line
  spans : ∀ n ∈ s.walk, IsWholeLine text n.span
  isOutline : s.header.isOutline = false
  said : LineSays text s.header.span.start.line (.feature s.header.name)
  children : ∀ (i : Nat) (n : Node), s.children[i]? = some n → n.StandsBefore text s.children[i + 1]?

/-! ## Events of nodes -/

theorem lineSays_of_mem_scan {text : String} {e : Event} (h : e ∈ scan text) : LineSays text e.line e.kind := by
  obtain ⟨raw, hRaw, -, hReads⟩ := (exists_line_iff_mem_scan text e).mp h
  exact ⟨raw, hRaw, hReads⟩

theorem isWholeLine_of_mem_scan {text : String} {e : Event} (h : e ∈ scan text) : IsWholeLine text e.span := by
  obtain ⟨raw, hRaw, hWidth, -⟩ := (exists_line_iff_mem_scan text e).mp h
  exact ⟨raw, hRaw, congrArg (Span.ofLine e.line) hWidth⟩

theorem afterFeature_subset (events : List Event) : afterFeature events ⊆ events := by
  induction events with
  | nil => exact List.Subset.refl []
  | cons e rest ih =>
    obtain ⟨line, width, kind⟩ := e
    cases kind with
    | feature name => exact List.subset_cons_self _ rest
    | scenario name isOutline => exact List.subset_cons_of_subset _ ih
    | examples => exact List.subset_cons_of_subset _ ih
    | tableRow cells => exact List.subset_cons_of_subset _ ih

theorem events_of_mem_sections {events : List Event} {s : Section} (h : s ∈ sections events) :
    (∃ e ∈ events, e.span = s.span ∧ e.kind = .scenario s.name s.isOutline) ∧ s.body ⊆ events := by
  induction events with
  | nil => cases h
  | cons e rest ih =>
    have hLater (hs : s ∈ sections rest) :
        (∃ f ∈ e :: rest, f.span = s.span ∧ f.kind = .scenario s.name s.isOutline) ∧ s.body ⊆ e :: rest := by
      obtain ⟨⟨f, hf, hHeader⟩, hBody⟩ := ih hs
      exact ⟨⟨f, List.mem_cons_of_mem e hf, hHeader⟩, List.subset_cons_of_subset e hBody⟩
    obtain ⟨line, width, kind⟩ := e
    cases kind with
    | scenario name isOutline =>
      rcases List.mem_cons.mp h with rfl | hs
      · refine ⟨⟨_, List.mem_cons_self, rfl, rfl⟩, ?_⟩
        exact List.subset_cons_of_subset _ (List.takeWhile_sublist _).subset
      · exact hLater hs
    | feature name => exact hLater h
    | examples => exact hLater h
    | tableRow cells => exact hLater h

section

variable {uri : String} {generation : Int} {text : String} {s : Section}

theorem lineSays_of_mem_sections (hs : s ∈ sections (afterFeature (scan text))) :
    LineSays text s.span.start.line (.scenario s.name s.isOutline) := by
  obtain ⟨⟨e, he, hSpan, hKind⟩, -⟩ := events_of_mem_sections hs
  rw [← hSpan, ← hKind]
  exact lineSays_of_mem_scan (afterFeature_subset _ he)

theorem lineSays_of_mem_rowBlocks (hs : s ∈ sections (afterFeature (scan text))) {rows : List Row} {row : Row}
    (hRows : rows ∈ rowBlocks s.body) (hRow : row ∈ rows) :
    LineSays text row.span.start.line (.tableRow row.cells) := by
  have hBody := rowsInBlocks_body (rowsInBlocks_afterFeature (rowsInBlocks_scanLines false 0 _)) s hs
  have hMem : row ∈ (rowBlocks s.body).flatten := List.mem_flatten.mpr ⟨rows, hRows, hRow⟩
  rw [flatten_rowBlocks hBody] at hMem
  obtain ⟨⟨line, width, kind⟩, he, hEvent⟩ := List.mem_filterMap.mp hMem
  have hScan := afterFeature_subset _ ((events_of_mem_sections hs).2 he)
  cases kind with
  | tableRow cells =>
    cases hEvent
    exact lineSays_of_mem_scan hScan
  | feature name => cases hEvent
  | scenario name isOutline => cases hEvent
  | examples => cases hEvent

theorem isRowOf_of_mem_cases (hs : s ∈ sections (afterFeature (scan text))) {header : Header} {row : Case}
    (hRow : row.withoutId ∈ s.cases uri generation) (hName : header.name = s.name) (hSpan : header.span = s.span)
    (hAfter : header.span.start.line < row.span.start.line) : row.IsRowOf text header := by
  obtain ⟨rows, hRows, source, hSource, columns, hCase⟩ := s.exists_row_of_mem_cases hRow
  have hRowSpan : row.span = source.span := congrArg Case.span hCase
  constructor
  · refine ⟨source.cells, ?_⟩
    rw [hRowSpan]
    exact lineSays_of_mem_rowBlocks hs hRows hSource
  · exact hAfter
  · rw [hSpan]
    exact (congrArg Case.anchor hCase :)
  · rw [hName]
    exact (congrArg Case.templateName hCase :)
  · exact (congrArg Case.isOutline hCase :)

theorem standsBefore_of_withoutIds (hs : s ∈ sections (afterFeature (scan text))) {n : Node} {next : Option Node}
    (hNode : n.withoutIds = s.node uri generation)
    (hAfter : ∀ m ∈ n.children, n.span.start.line < m.span.start.line)
    (hBefore : ∀ m ∈ n.children, ∀ sibling ∈ next, m.span.start.line < sibling.span.start.line) :
    n.StandsBefore text next := by
  have hSays := lineSays_of_mem_sections hs
  rcases s.exists_of_withoutIds hNode with ⟨hOutline, header, rows, rfl, hHeader, hRows⟩ | ⟨hPlain, c, rfl, hCase⟩
  · have hName : header.name = s.name := congrArg Header.name hHeader
    have hSpan : header.span = s.span := congrArg Header.span hHeader
    rw [hOutline, ← hName, ← hSpan] at hSays
    refine .outline (congrArg Header.isOutline hHeader) hSays fun row hRow => ?_
    have hMem : Node.case row ∈ rows.map .case := List.mem_map_of_mem hRow
    have hCase : row.withoutId ∈ s.cases uri generation := by
      rw [← hRows]
      exact List.mem_map_of_mem hRow
    exact ⟨isRowOf_of_mem_cases hs hCase hName hSpan (hAfter _ hMem), hBefore _ hMem⟩
  · have hName : c.name = s.name := congrArg Case.name hCase
    have hSpan : c.span = s.span := congrArg Case.span hCase
    rw [hPlain, ← hName, ← hSpan] at hSays
    refine .plain hSays ?_
    rw [hSpan]
    exact (congrArg Case.anchor hCase :)

end

/-! ## Places of a tree -/

theorem mem_walk_of_mem_children {n m : Node} (h : m ∈ n.children) : m ∈ n.walk := by
  cases n with
  | case c => cases h
  | suite header children => exact mem_walk_of_mem h

theorem line_lt_of_mem_children {uri text : String} {generation : Int} {suite : Suite}
    (h : build uri text generation = some suite) {n m : Node} (hn : n ∈ suite.children) (hm : m ∈ n.children) :
    n.span.start.line < m.span.start.line := by
  have hWalk := (pairwise_line_children h).1 n hn
  cases n with
  | case c => cases hm
  | suite header children =>
    rw [Node.walk, List.pairwise_cons] at hWalk
    exact hWalk.1 m (mem_walkAll.mpr ⟨m, hm, mem_walk_self m⟩)

/-- Every tree is faithful to its text. -/
theorem isPlacedIn_of_build (uri : String) (generation : Int) (text : String) (suite : Suite)
    (h : build uri text generation = some suite) : suite.IsPlacedIn text := by
  obtain ⟨⟨e, he, name, hKind, hHeader⟩, hChildren⟩ := exists_feature_of_build h
  constructor
  · exact pairwise_line_walk h
  · intro n hn
    have hSpan := (map_span_walk_sublist h).subset (List.mem_map_of_mem hn)
    obtain ⟨f, hf, hSame⟩ := List.mem_map.mp hSpan
    rw [← hSame]
    exact isWholeLine_of_mem_scan hf
  · exact (congrArg Header.isOutline hHeader :)
  · have hName : suite.header.name = name := congrArg Header.name hHeader
    have hSpan : suite.header.span = e.span := congrArg Header.span hHeader
    rw [hName, hSpan, ← hKind]
    exact lineSays_of_mem_scan he
  · intro i n hn
    have hMem : n ∈ suite.children := List.mem_of_getElem? hn
    obtain ⟨s, hs, hNode⟩ := hChildren n hMem
    apply standsBefore_of_withoutIds hs hNode
    · exact fun m hm => line_lt_of_mem_children h hMem hm
    · intro m hm sibling hSibling
      obtain ⟨hFirst, rfl⟩ := List.getElem?_eq_some_iff.mp hn
      obtain ⟨hSecond, rfl⟩ := List.getElem?_eq_some_iff.mp hSibling
      have hLines := List.pairwise_iff_getElem.mp (pairwise_line_children h).2 i (i + 1) hFirst hSecond (by omega)
      exact hLines m (mem_walk_of_mem_children hm) _ (mem_walk_self _)

/-- The rows of a second block are anchored at the outline as well. -/
theorem isPlacedIn_of_two_blocks :
    ∃ suite, build "f" "Feature: F\nScenario Outline: o\r\nExamples:\n|x|\n|1|\nExamples:\n|y|\n|2|\nScenario: p" 0 =
      some suite ∧ suite.cases.map Case.anchor = [⟨1, 19⟩, ⟨1, 19⟩, ⟨8, 11⟩] ∧ suite.IsPlacedIn
        "Feature: F\nScenario Outline: o\r\nExamples:\n|x|\n|1|\nExamples:\n|y|\n|2|\nScenario: p" := by
  have hAnchors : (build "f"
      "Feature: F\nScenario Outline: o\r\nExamples:\n|x|\n|1|\nExamples:\n|y|\n|2|\nScenario: p" 0).map
        (fun suite => suite.cases.map Case.anchor) = some [⟨1, 19⟩, ⟨1, 19⟩, ⟨8, 11⟩] := by
    decide +kernel
  obtain ⟨suite, hSuite, hCases⟩ := Option.map_eq_some_iff.mp hAnchors
  exact ⟨suite, hSuite, hCases, isPlacedIn_of_build "f" 0 _ suite hSuite⟩

end ScenarioRunner.Feature
