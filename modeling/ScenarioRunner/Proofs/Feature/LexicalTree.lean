import ScenarioRunner.Feature.Draft
import ScenarioRunner.Proofs.Feature.Sections

/-!
# The tree of a feature file

A draft that has its root already is finished by the rows and the sections that are still to come, and no step changes
what it is finished to. Main statement: the tree of a file is the lexical structure of its events.
-/

namespace ScenarioRunner.Feature

set_option autoImplicit false

variable (uri : String) (generation : Int)

/-- The cases of rows that come while a block is in some state. -/
def Block.cases (name : String) (anchor : Position) : Block → List Row → List Case
  | .outside, _ => []
  | .opened, rows => blockCases uri generation name anchor rows
  | .columns headers, rows => rows.map (rowCase uri generation name anchor headers)

@[simp] theorem Block.cases_nil (name : String) (anchor : Position) (b : Block) :
    b.cases uri generation name anchor [] = [] := by
  cases b <;> rfl

def laterCases (h : Header) (b : Block) (events : List Event) : List Case :=
  b.cases uri generation h.name h.span.stop (leadingRows events) ++
    (rowBlocks (lead events)).flatMap (blockCases uri generation h.name h.span.stop)

def Draft.finished (d : Draft) (events : List Event) : List Node :=
  d.children.map Node.withoutIds ++
    (match d.outline with
      | none => []
      | some (h, rows) =>
        [.suite h.withoutId ((rows.map Case.withoutId ++ laterCases uri generation h d.block events).map .case)]) ++
    (sections events).map (Section.node uri generation)

theorem withoutIdsAll_cases (rows : List Case) :
    withoutIdsAll (rows.map .case) = (rows.map Case.withoutId).map .case := by
  rw [withoutIdsAll_eq_map, List.map_map, List.map_map]
  rfl

theorem Draft.map_withoutIds_allChildren (d : Draft) :
    d.allChildren.map Node.withoutIds = d.children.map Node.withoutIds ++
      match d.outline with
      | none => []
      | some (h, rows) => [.suite h.withoutId ((rows.map Case.withoutId).map .case)] := by
  obtain ⟨names, root, children, outline, block⟩ := d
  cases outline with
  | none => simp [Draft.allChildren]
  | some outline => simp [Draft.allChildren, Node.withoutIds, withoutIdsAll_cases]

theorem Draft.finished_nil (d : Draft) : d.finished uri generation [] = d.allChildren.map Node.withoutIds := by
  rw [Draft.finished, Draft.map_withoutIds_allChildren]
  cases d.outline with
  | none => simp [sections]
  | some outline => simp [sections, laterCases, leadingRows, lead, rowBlocks]

/-! ## The steps of a draft with a root -/

theorem Draft.finished_feature (d : Draft) {header : Header} (hRoot : d.root = some header) {line width : Nat}
    {name : String} {rest : List Event} (hRows : RowsInBlocks false rest) :
    (d.add uri generation ⟨line, width, .feature name⟩).finished uri generation rest =
      d.finished uri generation (⟨line, width, .feature name⟩ :: rest) := by
  have hAdd : d.add uri generation ⟨line, width, .feature name⟩ = d := by
    simp only [Draft.add, Draft.addFeature, hRoot]
  rw [hAdd, Draft.finished, Draft.finished]
  cases d.outline with
  | none => rfl
  | some outline =>
    simp only [laterCases, leadingRows_eq_nil hRows]
    rfl

theorem Draft.finished_scenario (d : Draft) {header : Header} (hRoot : d.root = some header) {line width : Nat}
    {name : String} {isOutline : Bool} {rest : List Event} :
    (d.add uri generation ⟨line, width, .scenario name isOutline⟩).finished uri generation rest =
      d.finished uri generation (⟨line, width, .scenario name isOutline⟩ :: rest) := by
  have hLater : ∀ h b, laterCases uri generation h b (⟨line, width, .scenario name isOutline⟩ :: rest) = [] := by
    intro h b
    exact congrArg (· ++ []) (Block.cases_nil uri generation h.name h.span.stop b)
  have hBefore : d.finished uri generation (⟨line, width, .scenario name isOutline⟩ :: rest) =
      d.allChildren.map Node.withoutIds ++
        (sections (⟨line, width, .scenario name isOutline⟩ :: rest)).map (Section.node uri generation) := by
    rw [Draft.finished, Draft.map_withoutIds_allChildren]
    simp only [hLater, List.append_nil]
  rw [hBefore, sections]
  cases isOutline with
  | false =>
    simp only [Draft.add, Draft.addScenario, hRoot, Bool.false_eq_true, if_false, Draft.finished, List.map_append,
      List.append_nil, List.append_assoc]
    rfl
  | true =>
    simp only [Draft.add, Draft.addScenario, hRoot, if_true, Draft.finished, List.append_assoc]
    rfl

theorem Draft.finished_examples (d : Draft) {line width : Nat} {rest : List Event} :
    (d.add uri generation ⟨line, width, .examples⟩).finished uri generation rest =
      d.finished uri generation (⟨line, width, .examples⟩ :: rest) := by
  have hLater : ∀ h, laterCases uri generation h .opened rest =
      laterCases uri generation h d.block (⟨line, width, .examples⟩ :: rest) := by
    intro h
    have hBlocks : rowBlocks (lead (⟨line, width, .examples⟩ :: rest)) =
        leadingRows (lead rest) :: rowBlocks (lead rest) := rfl
    have hNow : leadingRows (⟨line, width, .examples⟩ :: rest) = [] := rfl
    rw [laterCases, laterCases, hBlocks, hNow, leadingRows_lead, Block.cases_nil, List.nil_append, List.flatMap_cons]
    rfl
  have hAdd : d.add uri generation ⟨line, width, .examples⟩ = { d with block := .opened } := rfl
  rw [hAdd, Draft.finished, Draft.finished]
  simp only [hLater]
  rfl

theorem Draft.finished_tableRow (d : Draft) {line width : Nat} {cells : List String} {rest : List Event} :
    (d.add uri generation ⟨line, width, .tableRow cells⟩).finished uri generation rest =
      d.finished uri generation (⟨line, width, .tableRow cells⟩ :: rest) := by
  obtain ⟨names, root, children, outline, block⟩ := d
  cases outline with
  | none => rfl
  | some outline =>
    obtain ⟨h, rows⟩ := outline
    cases block with
    | outside => rfl
    | opened => rfl
    | columns headers =>
      simp only [Draft.add, Draft.addRow, Draft.finished, List.map_append, List.map_cons, List.map_nil,
        List.append_assoc]
      rfl

theorem Draft.root_add (d : Draft) {header : Header} (hRoot : d.root = some header) (e : Event) :
    (d.add uri generation e).root = some header := by
  obtain ⟨line, width, kind⟩ := e
  cases kind with
  | feature name => simp only [Draft.add, Draft.addFeature, hRoot]
  | scenario name isOutline =>
    simp only [Draft.add, Draft.addScenario, hRoot]
    split
    · rfl
    · rfl
  | examples => exact hRoot
  | tableRow cells =>
    simp only [Draft.add, Draft.addRow]
    split
    · exact hRoot
    · exact hRoot
    · exact hRoot

/-- No step changes what a draft with a root is finished to. -/
theorem Draft.finished_add (d : Draft) {header : Header} (hRoot : d.root = some header) {inExamples : Bool} {e : Event}
    {rest : List Event} (hRows : RowsInBlocks inExamples (e :: rest)) :
    (d.add uri generation e).finished uri generation rest = d.finished uri generation (e :: rest) := by
  obtain ⟨line, width, kind⟩ := e
  cases kind with
  | feature name => exact d.finished_feature uri generation hRoot hRows.2
  | scenario name isOutline => exact d.finished_scenario uri generation hRoot
  | examples => exact d.finished_examples uri generation
  | tableRow cells => exact d.finished_tableRow uri generation

theorem Draft.root_foldl_add (events : List Event) (d : Draft) {header : Header} (hRoot : d.root = some header) :
    (events.foldl (Draft.add uri generation) d).root = some header := by
  induction events generalizing d with
  | nil => exact hRoot
  | cons e rest ih => exact ih _ (d.root_add uri generation hRoot e)

/-- From its root on, a draft collects the rows and the sections that come. -/
theorem Draft.allChildren_foldl_add {events : List Event} (d : Draft) {header : Header} (hRoot : d.root = some header)
    {inExamples : Bool} (hRows : RowsInBlocks inExamples events) :
    (events.foldl (Draft.add uri generation) d).allChildren.map Node.withoutIds =
      d.finished uri generation events := by
  induction events generalizing d inExamples with
  | nil => exact (d.finished_nil uri generation).symm
  | cons e rest ih =>
    have hChildren := ih _ (d.root_add uri generation hRoot e) hRows.2
    exact hChildren.trans (d.finished_add uri generation hRoot hRows)

/-! ## Before the root -/

structure Draft.IsBlank (d : Draft) : Prop where
  root : d.root = none
  children : d.children = []
  outline : d.outline = none

theorem Draft.IsBlank.add {d : Draft} (h : d.IsBlank) {e : Event} (hKind : e.featureName? = none) :
    (d.add uri generation e).IsBlank := by
  obtain ⟨line, width, kind⟩ := e
  cases kind with
  | feature name => cases hKind
  | scenario name isOutline =>
    simp only [Draft.add, Draft.addScenario, h.root]
    exact ⟨rfl, h.children, rfl⟩
  | examples => exact ⟨h.root, h.children, h.outline⟩
  | tableRow cells =>
    simp only [Draft.add, Draft.addRow, h.outline]
    exact h

theorem Draft.IsBlank.add_feature {d : Draft} (h : d.IsBlank) (line width : Nat) (name : String) :
    ∃ header, d.add uri generation ⟨line, width, .feature name⟩ = ⟨d.names ++ [name], some header, [], none, .outside⟩ ∧
      header.withoutId = { id := "", name, uri, span := Span.ofLine line width, generation } := by
  refine ⟨{ id := d.nextId uri name, name, uri, span := Span.ofLine line width, generation }, ?_, rfl⟩
  simp only [Draft.add, Draft.addFeature, h.root, h.children]
  rfl

/-- A draft without a root stays blank until its feature comes. -/
theorem Draft.isBlank_add {d : Draft} (h : d.root = none → d.IsBlank) (e : Event)
    (hRoot : (d.add uri generation e).root = none) : (d.add uri generation e).IsBlank := by
  cases hBefore : d.root with
  | some header =>
    rw [d.root_add uri generation hBefore e] at hRoot
    cases hRoot
  | none =>
    cases hKind : e.featureName? with
    | none => exact (h hBefore).add uri generation hKind
    | some name =>
      obtain ⟨line, width, kind⟩ := e
      cases kind with
      | feature name =>
        obtain ⟨header, hAdd, -⟩ := (h hBefore).add_feature uri generation line width name
        rw [hAdd] at hRoot
        cases hRoot
      | scenario name isOutline => cases hKind
      | examples => cases hKind
      | tableRow cells => cases hKind

theorem Draft.isBlank_foldl_add (events : List Event) {d : Draft} (h : d.root = none → d.IsBlank) :
    (events.foldl (Draft.add uri generation) d).root = none →
      (events.foldl (Draft.add uri generation) d).IsBlank := by
  induction events generalizing d with
  | nil => exact h
  | cons e rest ih => exact ih (d.isBlank_add uri generation h e)

theorem Draft.IsBlank.suite?_foldl_add {events : List Event} {d : Draft} (h : d.IsBlank) {inExamples : Bool}
    (hRows : RowsInBlocks inExamples events) :
    (events.foldl (Draft.add uri generation) d).suite?.map Suite.withoutIds = lexicalTree? uri generation events := by
  induction events generalizing d inExamples with
  | nil =>
    rw [List.foldl_nil, Draft.suite?, h.root]
    rfl
  | cons e rest ih =>
    cases hKind : e.featureName? with
    | none =>
      rw [List.foldl_cons, ih (h.add uri generation hKind) hRows.2]
      obtain ⟨line, width, kind⟩ := e
      cases kind with
      | feature name => cases hKind
      | scenario name isOutline => rfl
      | examples => rfl
      | tableRow cells => rfl
    | some name =>
      obtain ⟨line, width, kind⟩ := e
      cases kind with
      | feature name =>
        obtain ⟨header, hAdd, hHeader⟩ := h.add_feature uri generation line width name
        have hRoot := Draft.root_foldl_add uri generation rest _ (congrArg Draft.root hAdd)
        have hChildren := Draft.allChildren_foldl_add uri generation _ (congrArg Draft.root hAdd) hRows.2
        rw [List.foldl_cons, Draft.suite?, hRoot, Option.map_some, Option.map_some, Suite.withoutIds, hChildren,
          hHeader, hAdd]
        rfl
      | scenario name isOutline => cases hKind
      | examples => cases hKind
      | tableRow cells => cases hKind

theorem map_withoutIds_build (text : String) :
    (build uri text generation).map Suite.withoutIds = lexicalTree? uri generation (scan text) :=
  Draft.IsBlank.suite?_foldl_add uri generation ⟨rfl, rfl, rfl⟩ (rowsInBlocks_scanLines false 0 _)

theorem lexicalTree?_of_build {text : String} {suite : Suite} (h : build uri text generation = some suite) :
    lexicalTree? uri generation (scan text) = some suite.withoutIds := by
  rw [← map_withoutIds_build, h]
  rfl

theorem lexicalTree?_eq_none_iff (events : List Event) :
    lexicalTree? uri generation events = none ↔ ∀ e ∈ events, e.featureName? = none := by
  induction events with
  | nil => simp [lexicalTree?]
  | cons e rest ih =>
    obtain ⟨line, width, kind⟩ := e
    cases kind with
    | feature name => simp [lexicalTree?, Event.featureName?]
    | scenario name isOutline => simpa [lexicalTree?, Event.featureName?] using ih
    | examples => simpa [lexicalTree?, Event.featureName?] using ih
    | tableRow cells => simpa [lexicalTree?, Event.featureName?] using ih

theorem build_eq_none_iff (text : String) :
    build uri text generation = none ↔ ∀ e ∈ scan text, e.featureName? = none := by
  rw [← lexicalTree?_eq_none_iff uri generation, ← map_withoutIds_build, Option.map_eq_none_iff]

/-- The tree is the lexical structure of the file: its children are the sections after the first feature in the order
of their lines, and an outline has the rows of its blocks, without the first of each. -/
theorem build_eq_lexicalTree (text : String) :
    (build uri text generation = none ↔ ∀ e ∈ scan text, e.featureName? = none) ∧
      (build uri text generation).map Suite.withoutIds = lexicalTree? uri generation (scan text) ∧
      ((scan text).Pairwise fun e f => e.line < f.line) ∧
      ∀ s ∈ sections (afterFeature (scan text)),
        (rowBlocks s.body).flatten = s.body.filterMap Event.row? ∧
        (s.node uri generation).children.length =
          if s.isOutline then ((rowBlocks s.body).map fun rows => rows.length - 1).sum else 0 := by
  refine ⟨build_eq_none_iff uri generation text, map_withoutIds_build uri generation text,
    pairwise_scanLines false 0 _, ?_⟩
  intro s hs
  refine ⟨?_, s.length_children_node uri generation⟩
  apply flatten_rowBlocks
  exact rowsInBlocks_body (rowsInBlocks_afterFeature (rowsInBlocks_scanLines false 0 _)) s hs

/-- A second feature closes the block: what looks like a row after it is none. -/
theorem build_eq_lexicalTree_of_two_features :
    ∃ s ∈ sections (afterFeature (scan "Feature: F\nScenario Outline: say <n>\nExamples:\n|n|\n|1|\nFeature: G\n|2|")),
      s.isOutline = true ∧ (rowBlocks s.body).map List.length = [2] ∧
        (rowBlocks s.body).flatten = s.body.filterMap Event.row? ∧ (s.node "file:///f" 1).children.length = 1 := by
  have hSection : ⟨Span.ofLine 1 25, "say <n>", true,
      [⟨2, 9, .examples⟩, ⟨3, 3, .tableRow ["n"]⟩, ⟨4, 3, .tableRow ["1"]⟩, ⟨5, 10, .feature "G"⟩]⟩ ∈
      sections (afterFeature (scan
        "Feature: F\nScenario Outline: say <n>\nExamples:\n|n|\n|1|\nFeature: G\n|2|")) := by
    decide +kernel
  obtain ⟨hRows, hLength⟩ := (build_eq_lexicalTree "file:///f" 1 _).2.2.2 _ hSection
  exact ⟨_, hSection, rfl, rfl, hRows, hLength⟩

end ScenarioRunner.Feature
