import ScenarioRunner.Feature.Builder
import ScenarioRunner.Proofs.Feature.Nodes

/-!
# Reading a file again

What a builder gives for a text depends on the file, the text and the generation alone. Main statement: readings before
leave no trace, all nodes carry the generation of the reading, and another generation changes nothing else in the tree.
-/

namespace ScenarioRunner.Feature

set_option autoImplicit false

/-! ## Trees of another generation -/

def Case.withGeneration (generation : Int) (c : Case) : Case :=
  { c with generation }

def Header.withGeneration (generation : Int) (h : Header) : Header :=
  { h with generation }

mutual

def Node.withGeneration (generation : Int) : Node → Node
  | .case c => .case (c.withGeneration generation)
  | .suite header children => .suite (header.withGeneration generation) (withGenerationAll generation children)

def withGenerationAll (generation : Int) : List Node → List Node
  | [] => []
  | n :: rest => n.withGeneration generation :: withGenerationAll generation rest

end

def Suite.withGeneration (generation : Int) (s : Suite) : Suite :=
  ⟨s.header.withGeneration generation, s.children.map (Node.withGeneration generation)⟩

def Draft.withGeneration (generation : Int) (d : Draft) : Draft :=
  { d with
    root := d.root.map (Header.withGeneration generation)
    children := d.children.map (Node.withGeneration generation)
    outline := d.outline.map fun outline =>
      (outline.1.withGeneration generation, outline.2.map (Case.withGeneration generation)) }

section

variable (uri : String) (generation other : Int)

theorem withGenerationAll_eq_map (nodes : List Node) :
    withGenerationAll generation nodes = nodes.map (Node.withGeneration generation) := by
  induction nodes with
  | nil => rfl
  | cons n nodes ih => rw [withGenerationAll, ih, List.map_cons]

theorem Node.withGeneration_outline (header : Header) (rows : List Case) :
    (Node.suite header (rows.map .case)).withGeneration generation =
      .suite (header.withGeneration generation) ((rows.map (Case.withGeneration generation)).map .case) := by
  rw [Node.withGeneration, withGenerationAll_eq_map, List.map_map, List.map_map]
  rfl

theorem Draft.allChildren_withGeneration (d : Draft) :
    (d.withGeneration generation).allChildren = d.allChildren.map (Node.withGeneration generation) := by
  obtain ⟨names, root, children, outline, block⟩ := d
  cases outline with
  | none => rfl
  | some outline =>
    obtain ⟨header, rows⟩ := outline
    have hOutline := Node.withGeneration_outline generation header rows
    simp only [Draft.allChildren, Draft.withGeneration, Option.map_some, List.map_append, List.map_cons, List.map_nil,
      hOutline]

theorem Draft.suite?_withGeneration (d : Draft) :
    (d.withGeneration generation).suite? = d.suite?.map (Suite.withGeneration generation) := by
  rw [Draft.suite?, Draft.suite?, Draft.allChildren_withGeneration, Draft.withGeneration, Option.map_map, Option.map_map]
  rfl

/-! ## The steps of a draft -/

theorem Draft.withGeneration_addFeature (d : Draft) (span : Span) (name : String) :
    (d.addFeature uri generation span name).withGeneration other =
      (d.withGeneration other).addFeature uri other span name := by
  obtain ⟨names, root, children, outline, block⟩ := d
  cases root with
  | none => rfl
  | some header => rfl

theorem Draft.withGeneration_addScenario (d : Draft) (span : Span) (name : String) (isOutline : Bool) :
    (d.addScenario uri generation span name isOutline).withGeneration other =
      (d.withGeneration other).addScenario uri other span name isOutline := by
  have hChildren := d.allChildren_withGeneration other
  obtain ⟨names, root, children, outline, block⟩ := d
  cases root with
  | none => rfl
  | some header =>
    cases isOutline with
    | true =>
      simp only [Draft.addScenario, if_true]
      rw [hChildren]
      rfl
    | false =>
      simp only [Draft.addScenario, Bool.false_eq_true, if_false]
      rw [hChildren]
      simp only [Draft.withGeneration, List.map_append]
      rfl

theorem Draft.withGeneration_addRow (d : Draft) (span : Span) (cells : List String) :
    (d.addRow uri generation span cells).withGeneration other =
      (d.withGeneration other).addRow uri other span cells := by
  obtain ⟨names, root, children, outline, block⟩ := d
  cases outline with
  | none => rfl
  | some outline =>
    cases block with
    | outside => rfl
    | opened => rfl
    | columns headers =>
      simp only [Draft.addRow, Draft.withGeneration, Option.map_some, List.map_append]
      rfl

/-- No step looks at the generation of what the draft has. -/
theorem Draft.withGeneration_add (d : Draft) (e : Event) :
    (d.add uri generation e).withGeneration other = (d.withGeneration other).add uri other e := by
  obtain ⟨line, width, kind⟩ := e
  cases kind with
  | feature name => exact d.withGeneration_addFeature uri generation other _ name
  | scenario name isOutline => exact d.withGeneration_addScenario uri generation other _ name isOutline
  | examples => rfl
  | tableRow cells => exact d.withGeneration_addRow uri generation other _ cells

theorem map_withGeneration_build (text : String) :
    (build uri text generation).map (Suite.withGeneration other) = build uri text other := by
  have hDraft : (Draft.ofEvents uri generation (scan text)).withGeneration other =
      Draft.ofEvents uri other (scan text) :=
    (List.foldl_hom (Draft.withGeneration other) fun d e => (d.withGeneration_add uri generation other e).symm).symm
  rw [build, build, ← Draft.suite?_withGeneration, hDraft]

end

/-! ## Builders -/

def Builder.after (b : Builder) (readings : List (String × Int)) : Builder :=
  readings.foldl (fun b reading => (b.build reading.1 reading.2).1) b

theorem Builder.foldl_add (b : Builder) (events : List Event) :
    events.foldl Builder.add b = { b with toDraft := events.foldl (Draft.add b.uri b.generation) b.toDraft } := by
  induction events generalizing b with
  | nil => rfl
  | cons e events ih => rw [List.foldl_cons, ih, List.foldl_cons, Builder.add]

theorem Builder.uri_build (b : Builder) (text : String) (generation : Int) :
    (b.build text generation).1.uri = b.uri := by
  rw [Builder.build, Builder.foldl_add]
  rfl

theorem Builder.uri_after (b : Builder) (readings : List (String × Int)) : (b.after readings).uri = b.uri := by
  induction readings generalizing b with
  | nil => rfl
  | cons reading readings ih => exact (ih _).trans (b.uri_build reading.1 reading.2)

/-- Only the file of a builder outlives the start of a reading. -/
theorem Builder.build_eq (b : Builder) (text : String) (generation : Int) :
    b.build text generation =
      (⟨Draft.ofEvents b.uri generation (scan text), b.uri, generation⟩, Feature.build b.uri text generation) := by
  rw [Builder.build, Builder.foldl_add]
  rfl

/-- A builder that has read other texts is after the next one what a new builder is, and gives the same tree; all nodes
of the tree carry the generation of the reading; and with another generation the tree is the same but for it. -/
theorem build_after_readings (uri : String) (readings : List (String × Int)) (text : String) (generation other : Int) :
    let used := Builder.after { uri } readings
    used.build text generation = Builder.build { uri } text generation ∧
      (∀ suite, (used.build text generation).2 = some suite → ∀ n ∈ suite.walk, n.generation = generation) ∧
      (used.build text generation).2.map (Suite.withGeneration other) = (used.build text other).2 := by
  intro used
  have hUri : used.uri = uri := Builder.uri_after { uri } readings
  have hTree : ∀ generation, used.build text generation = Builder.build { uri } text generation := by
    intro generation
    rw [Builder.build_eq, Builder.build_eq, hUri]
  refine ⟨hTree generation, ?_, ?_⟩
  · intro suite hSuite n hn
    rw [Builder.build_eq] at hSuite
    exact (belongs_of_mem_build hSuite n hn).2
  · rw [Builder.build_eq, Builder.build_eq, map_withGeneration_build]

/-- The first text ends behind the columns of its examples. The second one has a row for them and the same names. -/
theorem build_after_cut_block :
    ∃ suite, ((Builder.after { uri := "f" } [("Feature: A\nScenario Outline: a\nExamples:\n|x|", 1)]).build
        "|1|\nFeature: A\nScenario: a" 2).2 = some suite ∧
      suite.walk.map Node.id = ["f/A", "f/a"] ∧ ∀ n ∈ suite.walk, n.generation = 2 := by
  have hSuite : ((Builder.after { uri := "f" } [("Feature: A\nScenario Outline: a\nExamples:\n|x|", 1)]).build
      "|1|\nFeature: A\nScenario: a" 2).2 = some
        ⟨⟨"f/A", "A", "f", Span.ofLine 1 10, 2, false⟩,
          [.case ⟨"f/a", "a", "f", Span.ofLine 2 11, ⟨2, 11⟩, 2, false, "a"⟩]⟩ := by
    rfl
  exact ⟨_, hSuite, rfl, (build_after_readings "f" _ _ 2 3).2.1 _ hSuite⟩

end ScenarioRunner.Feature
