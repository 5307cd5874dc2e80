import ScenarioRunner.Proofs.Feature.LineGrammar
import ScenarioRunner.Proofs.Feature.Placement

/-!
# Texts that grow

A draft never changes a node that it has: an event adds at most one, behind all others. Main statement: the tree of a
longer text has the nodes of the shorter one, in their order, and behind them nodes on the lines that were appended.
-/

namespace ScenarioRunner.Feature

open ScenarioRunner.Text

set_option autoImplicit false

def Node.alone : Node → Node
  | .case c => .case c
  | .suite header _ => .suite header []

def Draft.nodes (d : Draft) : List Node :=
  match d.root with
  | none => []
  | some header => .suite header [] :: (walkAll d.allChildren).map Node.alone

theorem Draft.nodes_of_root {d : Draft} {header : Header} (h : d.root = some header) :
    d.nodes = .suite header [] :: (walkAll d.allChildren).map Node.alone := by
  rw [Draft.nodes, h]

theorem Draft.nodes_of_none {d : Draft} (h : d.root = none) : d.nodes = [] := by
  rw [Draft.nodes, h]

theorem Draft.nodes_of_suite? {d : Draft} {suite : Suite} (h : d.suite? = some suite) :
    d.nodes = suite.walk.map Node.alone := by
  obtain ⟨root, hRoot, rfl⟩ := Option.map_eq_some_iff.mp h
  rw [Draft.nodes_of_root hRoot]
  rfl

/-! ## The steps -/

/-- What an event does to the nodes of a draft. A node that it adds takes the next id and its place. -/
inductive Draft.Grows (uri : String) (span : Span) (d d' : Draft) : Prop
  | same (hNodes : d'.nodes = d.nodes) (hNames : d'.names = d.names)
  | more {n : Node} (hNodes : d'.nodes = d.nodes ++ [n]) (hNames : d'.names = d.names ++ [n.name])
      (hId : n.id = d.nextId uri n.name) (hSpan : n.span = span)

section

variable (uri : String) (generation : Int)

theorem Draft.IsBlank.grows_add {d : Draft} (h : d.IsBlank) (e : Event) :
    d.Grows uri e.span (d.add uri generation e) := by
  obtain ⟨line, width, kind⟩ := e
  cases kind with
  | feature name =>
    have hAdd : d.add uri generation ⟨line, width, .feature name⟩ =
        ⟨d.names ++ [name], some ⟨d.nextId uri name, name, uri, Span.ofLine line width, generation, false⟩, [], none,
          .outside⟩ := by
      simp only [Draft.add, Draft.addFeature, h.root, h.children]
      rfl
    rw [hAdd]
    apply Draft.Grows.more
    · rw [Draft.nodes_of_none h.root]
      rfl
    · rfl
    · rfl
    · rfl
  | scenario name isOutline =>
    simp only [Draft.add, Draft.addScenario, h.root]
    exact .same (Draft.nodes_of_none h.root).symm rfl
  | examples => exact .same rfl rfl
  | tableRow cells =>
    simp only [Draft.add, Draft.addRow, h.outline]
    exact .same rfl rfl

theorem Draft.grows_addScenario (d : Draft) {header : Header} (hRoot : d.root = some header) (span : Span)
    (name : String) (isOutline : Bool) : d.Grows uri span (d.addScenario uri generation span name isOutline) := by
  cases isOutline with
  | true =>
    apply Draft.Grows.more (n := .suite ⟨d.nextId uri name, name, uri, span, generation, true⟩ [])
    · rw [Draft.nodes_of_root hRoot]
      simp only [Draft.addScenario, hRoot, if_true, Draft.nodes, Draft.allChildren, walkAll_append, List.map_append]
      rfl
    · simp only [Draft.addScenario, hRoot, if_true]
      rfl
    · rfl
    · rfl
  | false =>
    apply Draft.Grows.more (n := .case ⟨d.nextId uri name, name, uri, span, span.stop, generation, false, name⟩)
    · rw [Draft.nodes_of_root hRoot]
      simp only [Draft.addScenario, hRoot, Bool.false_eq_true, if_false, Draft.nodes, Draft.allChildren,
        walkAll_append, List.map_append]
      rfl
    · simp only [Draft.addScenario, hRoot, Bool.false_eq_true, if_false]
      rfl
    · rfl
    · rfl

theorem Draft.grows_addRow (d : Draft) {root : Header} (hRoot : d.root = some root) (span : Span)
    (cells : List String) : d.Grows uri span (d.addRow uri generation span cells) := by
  cases hOutline : d.outline with
  | none =>
    simp only [Draft.addRow, hOutline]
    exact .same rfl rfl
  | some outline =>
    obtain ⟨header, rows⟩ := outline
    cases hBlock : d.block with
    | outside =>
      simp only [Draft.addRow, hOutline, hBlock]
      exact .same rfl rfl
    | opened =>
      simp only [Draft.addRow, hOutline, hBlock]
      refine .same ?_ rfl
      simp only [Draft.nodes, Draft.allChildren, hOutline]
    | columns headers =>
      let name := substitute header.name headers cells
      apply Draft.Grows.more (n := .case
        ⟨d.nextId uri name, name, uri, span, header.span.stop, generation, false, header.name⟩)
      · simp only [Draft.nodes, Draft.addRow, hOutline, hBlock, hRoot, Draft.allChildren, walkAll_append, walkAll,
          Node.walk, walkAll_cases, List.map_append, List.append_nil, List.map_cons, List.map_nil, List.append_assoc,
          List.cons_append]
        rfl
      · simp only [Draft.addRow, hOutline, hBlock]
        rfl
      · rfl
      · rfl

theorem Draft.grows_add {d : Draft} (h : d.root = none → d.IsBlank) (e : Event) :
    d.Grows uri e.span (d.add uri generation e) := by
  cases hRoot : d.root with
  | none => exact (h hRoot).grows_add uri generation e
  | some root =>
    obtain ⟨line, width, kind⟩ := e
    cases kind with
    | feature name =>
      simp only [Draft.add, Draft.addFeature, hRoot]
      exact .same rfl rfl
    | scenario name isOutline => exact d.grows_addScenario uri generation hRoot _ name isOutline
    | examples => exact .same rfl rfl
    | tableRow cells => exact d.grows_addRow uri generation hRoot _ cells

/-- Further events add nodes at the end, at most one for each event. -/
theorem Draft.exists_later_nodes {d : Draft} (h : d.root = none → d.IsBlank) (events : List Event) :
    ∃ later, (events.foldl (Draft.add uri generation) d).nodes = d.nodes ++ later ∧
      (later.map Node.span).Sublist (events.map Event.span) := by
  induction events generalizing d with
  | nil => exact ⟨[], (List.append_nil d.nodes).symm, List.Sublist.slnil⟩
  | cons e events ih =>
    obtain ⟨later, hLater, hSpans⟩ := ih (d.isBlank_add uri generation h e)
    rw [List.foldl_cons, hLater]
    cases d.grows_add uri generation h e with
    | same hNodes => exact ⟨later, by rw [hNodes], hSpans.cons e.span⟩
    | @more n hNodes hNames hId hSpan =>
      refine ⟨n :: later, by rw [hNodes, List.append_assoc, List.singleton_append], ?_⟩
      rw [List.map_cons, List.map_cons, hSpan]
      exact hSpans.cons_cons e.span

end

/-! ## Lines that come later -/

/-- The lines before matter to those that come later only by the block that they leave open. -/
theorem scanLines_append (inExamples : Bool) (number : Nat) (lines others : List (List Char)) :
    ∃ stillOpen, scanLines inExamples number (lines ++ others) =
      scanLines inExamples number lines ++ scanLines stillOpen (number + lines.length) others := by
  induction lines generalizing inExamples number with
  | nil => exact ⟨inExamples, rfl⟩
  | cons raw lines ih =>
    have hLength : number + (raw :: lines).length = number + 1 + lines.length := by
      rw [List.length_cons]
      omega
    rw [List.cons_append, scanLines, scanLines, hLength]
    cases EventKind.ofLine? inExamples (dropTrailing (· == '\r') raw) with
    | none => exact ih inExamples (number + 1)
    | some kind =>
      obtain ⟨stillOpen, hLater⟩ := ih kind.keepsExamples (number + 1)
      exact ⟨stillOpen, congrArg (_ :: ·) hLater⟩

theorem scan_append_lineFeed (first second : String) :
    ∃ stillOpen, scan (first ++ "\n" ++ second) = scan first ++
      scanLines stillOpen (pieces '\n' first.toList).length (pieces '\n' second.toList) := by
  have hText : (first ++ "\n" ++ second).toList = first.toList ++ '\n' :: second.toList := by simp
  have hLater := scanLines_append false 0 (pieces '\n' first.toList) (pieces '\n' second.toList)
  rwa [← pieces_append_cons, ← hText, Nat.zero_add] at hLater

/-- A text that is put behind another in lines of its own only adds nodes, which stand on these lines. -/
theorem walk_build_append (uri : String) (generation : Int) (first second : String) (suite : Suite)
    (h : build uri first generation = some suite) :
    ∃ longer later, build uri (first ++ "\n" ++ second) generation = some longer ∧
      longer.walk.map Node.alone = suite.walk.map Node.alone ++ later ∧
      ∀ n ∈ later, ∃ i raw, (pieces '\n' second.toList)[i]? = some raw ∧ n.span =
        Span.ofLine ((pieces '\n' first.toList).length + i) (dropTrailing (· == '\r') raw).length := by
  obtain ⟨stillOpen, hScan⟩ := scan_append_lineFeed first second
  obtain ⟨root, hRoot, -⟩ := Option.map_eq_some_iff.mp h
  have hBlank (hNone : (Draft.ofEvents uri generation (scan first)).root = none) :
      (Draft.ofEvents uri generation (scan first)).IsBlank :=
    Draft.isBlank_foldl_add uri generation (scan first) (fun _ => ⟨rfl, rfl, rfl⟩) hNone
  obtain ⟨later, hNodes, hSpans⟩ := Draft.exists_later_nodes uri generation hBlank
    (scanLines stillOpen (pieces '\n' first.toList).length (pieces '\n' second.toList))
  have hLast := Draft.root_foldl_add uri generation
    (scanLines stillOpen (pieces '\n' first.toList).length (pieces '\n' second.toList)) _ hRoot
  rw [Draft.ofEvents, ← List.foldl_append, ← hScan, ← Draft.ofEvents] at hNodes hLast
  have hLonger : build uri (first ++ "\n" ++ second) generation =
      some ⟨root, (Draft.ofEvents uri generation (scan (first ++ "\n" ++ second))).allChildren⟩ := by
    rw [build, Draft.suite?, hLast]
    rfl
  refine ⟨_, later, hLonger, ?_, ?_⟩
  · rw [← Draft.nodes_of_suite? hLonger, ← Draft.nodes_of_suite? h]
    exact hNodes
  · intro n hn
    obtain ⟨e, he, hSpan⟩ := List.mem_map.mp (hSpans.subset (List.mem_map_of_mem hn))
    obtain ⟨raw, hLine, hRaw, hWidth, -⟩ := (mem_scanLines_iff _ _ _ e).mp he
    refine ⟨e.line - (pieces '\n' first.toList).length, raw, hRaw, ?_⟩
    rw [← hSpan, Event.span, hWidth, Nat.add_sub_cancel' hLine]

/-- The cut is behind the first row of a block. The next line has a row of the same outline. -/
theorem walk_build_append_of_cut_block :
    ∃ suite longer later, build "f" "Feature: F\nScenario Outline: o\nExamples:\n|x|" 0 = some suite ∧
      build "f" ("Feature: F\nScenario Outline: o\nExamples:\n|x|" ++ "\n" ++ "|1|\n\nScenario: p") 0 =
        some longer ∧
      longer.walk.map Node.alone = suite.walk.map Node.alone ++ later ∧
      longer.walk.map Node.span = [Span.ofLine 0 10, Span.ofLine 1 19, Span.ofLine 4 3, Span.ofLine 6 11] := by
  have hSuite : build "f" "Feature: F\nScenario Outline: o\nExamples:\n|x|" 0 = some
      ⟨⟨"f/F", "F", "f", Span.ofLine 0 10, 0, false⟩, [.suite ⟨"f/o", "o", "f", Span.ofLine 1 19, 0, true⟩ []]⟩ := by
    rfl
  have hSpans : (build "f" ("Feature: F\nScenario Outline: o\nExamples:\n|x|" ++ "\n" ++ "|1|\n\nScenario: p")
      0).map (fun suite => suite.walk.map Node.span) =
        some [Span.ofLine 0 10, Span.ofLine 1 19, Span.ofLine 4 3, Span.ofLine 6 11] := by
    decide +kernel
  obtain ⟨longer, later, hLonger, hNodes, -⟩ := walk_build_append "f" 0 _ "|1|\n\nScenario: p" _ hSuite
  rw [hLonger] at hSpans
  exact ⟨_, longer, later, hSuite, hLonger, hNodes, Option.some.inj hSpans⟩

end ScenarioRunner.Feature
