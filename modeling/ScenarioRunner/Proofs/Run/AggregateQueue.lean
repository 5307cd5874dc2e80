import Mathlib.Data.List.Destutter
import ScenarioRunner.Proofs.Run.Selection

/-!
# The queue of an aggregate run

Rows pass a filter by the name of their outline as well. Main statement: the queue of an aggregate run is the queue of the
rows, with each row replaced by the case of its outline and repeats left out.
-/

namespace ScenarioRunner.Run

open ScenarioRunner.Feature

set_option autoImplicit false

/-! ## Dropping repeats -/

section

variable {α β : Type} [DecidableEq β]

theorem destutter'_replicate_append (b : β) (n : Nat) (l : List β) :
    (List.replicate n b ++ l).destutter' (· ≠ ·) b = l.destutter' (· ≠ ·) b := by
  induction n with
  | zero => rfl
  | succ n ih => rw [List.replicate_succ, List.cons_append, List.destutter'_cons_neg _ (by simp), ih]

/-- The list repeats one member, which its short form has once. -/
def ShortRun (run short : List β) : Prop :=
  (run = [] ∧ short = []) ∨ ∃ b n, run = List.replicate (n + 1) b ∧ short = [b]

variable {f g : α → List β}

theorem destutter'_flatMap {l : List α} (hRun : ∀ x ∈ l, ShortRun (f x) (g x))
    (hApart : l.Pairwise fun x y => ∀ a ∈ g x, ∀ b ∈ g y, a ≠ b) {a : β} (hNew : ∀ x ∈ l, ∀ b ∈ g x, a ≠ b) :
    (l.flatMap f).destutter' (· ≠ ·) a = a :: l.flatMap g := by
  induction l generalizing a with
  | nil => rfl
  | cons x l ih =>
    obtain ⟨hFirst, hRest⟩ := List.pairwise_cons.mp hApart
    have hRuns : ∀ y ∈ l, ShortRun (f y) (g y) := fun y hy => hRun y (List.mem_cons_of_mem x hy)
    rw [List.flatMap_cons, List.flatMap_cons]
    rcases hRun x List.mem_cons_self with ⟨hf, hg⟩ | ⟨b, n, hf, hg⟩
    · rw [hf, hg, List.nil_append, List.nil_append]
      exact ih hRuns hRest fun y hy => hNew y (List.mem_cons_of_mem x hy)
    · have hb : b ∈ g x := by simp [hg]
      rw [hf, hg, List.replicate_succ, List.cons_append, List.destutter'_cons_pos _ (hNew x List.mem_cons_self b hb),
        destutter'_replicate_append, ih hRuns hRest fun y hy => hFirst y hy b hb, List.singleton_append]

theorem destutter_flatMap {l : List α} (hRun : ∀ x ∈ l, ShortRun (f x) (g x))
    (hApart : l.Pairwise fun x y => ∀ a ∈ g x, ∀ b ∈ g y, a ≠ b) : (l.flatMap f).destutter (· ≠ ·) = l.flatMap g := by
  induction l with
  | nil => rfl
  | cons x l ih =>
    obtain ⟨hFirst, hRest⟩ := List.pairwise_cons.mp hApart
    have hRuns : ∀ y ∈ l, ShortRun (f y) (g y) := fun y hy => hRun y (List.mem_cons_of_mem x hy)
    rw [List.flatMap_cons, List.flatMap_cons]
    rcases hRun x List.mem_cons_self with ⟨hf, hg⟩ | ⟨b, n, hf, hg⟩
    · rw [hf, hg, List.nil_append, List.nil_append]
      exact ih hRuns hRest
    · have hb : b ∈ g x := by simp [hg]
      rw [hf, hg, List.replicate_succ, List.cons_append, List.destutter_cons', destutter'_replicate_append,
        destutter'_flatMap hRuns hRest fun y hy => hFirst y hy b hb, List.singleton_append]

end

/-! ## Cases that stand for others -/

def headerWithRow? (c : Case) : Node → Option Header
  | .case _ => none
  | .suite header children => if c ∈ children.filterMap Node.case? then some header else none

/-- The case that an aggregate run has for a case: for a row the one of its outline. -/
def standIn (suite : Suite) (c : Case) : Case :=
  ((suite.children.findSome? (headerWithRow? c)).bind fun header => header.outlineCase.toOption).getD c

theorem headerWithRow?_eq_some_iff {c : Case} {n : Node} {header : Header} :
    headerWithRow? c n = some header ↔ ∃ children, n = .suite header children ∧ .case c ∈ children := by
  have hMem : ∀ children : List Node, c ∈ children.filterMap Node.case? ↔ .case c ∈ children := by
    intro children
    rw [List.mem_filterMap]
    constructor
    · rintro ⟨m, hm, hCase⟩
      cases m with
      | case c' =>
        cases hCase
        exact hm
      | suite _ _ => cases hCase
    · exact fun h => ⟨.case c, h, rfl⟩
  cases n with
  | case c' => simp [headerWithRow?]
  | suite header' children => simp [headerWithRow?, hMem, and_comm]

section

variable {uri text : String} {generation : Int} {suite : Suite}

theorem findSome?_headerWithRow? (h : build uri text generation = some suite) {n : Node} (hn : n ∈ suite.children)
    {c : Case} (hc : .case c ∈ n.walk) : suite.children.findSome? (headerWithRow? c) = headerWithRow? c n := by
  -- The case stands below one child only, so that no other child has it as a row.
  have hOnly : ∀ m ∈ suite.children, ∀ header, headerWithRow? c m = some header → m = n := by
    intro m hm header hHeader
    obtain ⟨children, rfl, hRow⟩ := headerWithRow?_eq_some_iff.mp hHeader
    exact eq_of_mem_walk h hm hn (mem_walk_of_mem hRow) hc
  cases hFind : suite.children.findSome? (headerWithRow? c) with
  | none => exact (List.findSome?_eq_none_iff.mp hFind n hn).symm
  | some header =>
    obtain ⟨m, hm, hHeader⟩ := List.exists_of_findSome?_eq_some hFind
    rw [← hOnly m hm header hHeader, hHeader]

theorem standIn_scenario (h : build uri text generation = some suite) {c : Case} (hCase : .case c ∈ suite.children) :
    standIn suite c = c := by
  rw [standIn, findSome?_headerWithRow? h hCase (mem_walk_self _)]
  rfl

theorem standIn_row (h : build uri text generation = some suite) {header : Header} {rows : List Case}
    (hOutline : .suite header (rows.map .case) ∈ suite.children) {row : Case} (hRow : row ∈ rows) {template : Case}
    (hTemplate : header.outlineCase = .ok template) : standIn suite row = template := by
  have hMem : Node.case row ∈ rows.map .case := List.mem_map_of_mem hRow
  have hHeader : headerWithRow? row (.suite header (rows.map .case)) = some header :=
    headerWithRow?_eq_some_iff.mpr ⟨_, rfl, hMem⟩
  rw [standIn, findSome?_headerWithRow? h hOutline (mem_walk_of_mem hMem), hHeader, Option.bind_some, hTemplate]
  rfl

/-! ## The queue of one child -/

theorem casesOfAll_rows (filter : Option String) (rows : List Case) :
    Selection.casesOfAll { filter } (rows.map .case) = rows.filter fun row => row.passes filter := by
  induction rows with
  | nil => rfl
  | cons row rows ih =>
    rw [List.map_cons, Selection.casesOfAll, ih, Selection.casesOf, List.filter_cons]
    cases row.passes filter <;> simp

theorem casesOf_outline (filter : Option String) (header : Header) (rows : List Case) :
    Selection.casesOf { filter } (.suite header (rows.map .case)) = rows.filter fun row => row.passes filter := by
  rw [Selection.casesOf, ← casesOfAll_rows]
  simp

theorem casesOf_outline_aggregate (filter : Option String) {header : Header} (hOutline : header.isOutline = true)
    (children : List Node) :
    Selection.casesOf { filter, aggregatesOutlines := true } (.suite header children) =
      outlineCases filter ⟨header, children⟩ := by
  rw [Selection.casesOf, hOutline]
  simp

/-- An outline with a match has a row with one, since all its rows pass where its name does. -/
theorem exists_row_of_containsMatch {header : Header} (hOutline : header.isOutline = true) {rows : List Case}
    (hTemplate : ∀ row ∈ rows, row.templateName = header.name) (hRows : rows ≠ []) {filter : Option String} :
    Suite.containsMatch ⟨header, rows.map .case⟩ filter = true ↔ ∃ row ∈ rows, row.passes filter = true := by
  rw [containsMatch_outline hOutline]
  refine ⟨?_, .inr⟩
  rintro (hName | hRow)
  · obtain ⟨row, hRow⟩ := List.exists_mem_of_ne_nil rows hRows
    refine ⟨row, hRow, ?_⟩
    rw [Case.passes, hTemplate row hRow, hName, Bool.or_true]
  · exact hRow

theorem shortRun_of_forall_eq {β : Type} {l : List β} {b : β} (h : ∀ a ∈ l, a = b) (hNil : l ≠ []) : ShortRun l [b] := by
  refine .inr ⟨b, l.length - 1, ?_, rfl⟩
  have hLength := List.length_pos_iff.mpr hNil
  rw [Nat.sub_add_cancel hLength]
  exact List.eq_replicate_iff.mpr ⟨rfl, h⟩

/-- A row is replaced by the case of its outline, which an aggregate run has once if a row passes. -/
theorem shortRun_casesOf (h : build uri text generation = some suite)
    (hRows : ∀ header children, .suite header children ∈ suite.children → children ≠ []) (filter : Option String)
    {n : Node} (hn : n ∈ suite.children) :
    ShortRun ((Selection.casesOf { filter } n).map (standIn suite))
      (Selection.casesOf { filter, aggregatesOutlines := true } n) := by
  cases (isScenario_of_mem_children h).2 n hn with
  | plain c =>
    rw [Selection.casesOf, Selection.casesOf]
    split
    · exact .inl ⟨rfl, rfl⟩
    · exact .inr ⟨c, 0, congrArg (fun c => [c]) (standIn_scenario h hn), rfl⟩
  | @outline header rows hOutline hTemplate =>
    obtain ⟨template, hTemplateCase, -⟩ := Header.exists_outlineCase hOutline
    have hNonempty : rows ≠ [] := by
      rintro rfl
      exact hRows _ _ hn rfl
    have hMatch : Suite.containsMatch ⟨header, rows.map .case⟩ filter = true ↔ ∃ row ∈ rows, row.passes filter = true :=
      exists_row_of_containsMatch hOutline hTemplate hNonempty
    rw [casesOf_outline, casesOf_outline_aggregate filter hOutline, outlineCases, hTemplateCase]
    split
    · next hContains =>
      obtain ⟨row, hRow, hPasses⟩ := hMatch.mp hContains
      apply shortRun_of_forall_eq
      · intro c hc
        obtain ⟨row', hRow', rfl⟩ := List.mem_map.mp hc
        exact standIn_row h hn (List.mem_of_mem_filter hRow') hTemplateCase
      · exact List.ne_nil_of_mem (List.mem_map_of_mem (List.mem_filter.mpr ⟨hRow, hPasses⟩))
    · next hContains =>
      refine .inl ⟨?_, rfl⟩
      rw [List.map_eq_nil_iff, List.filter_eq_nil_iff]
      exact fun row hRow hPasses => hContains (hMatch.mpr ⟨row, hRow, hPasses⟩)

theorem span_of_mem_casesOf (s : Selection) (hAggregate : s.aggregatesOutlines = true) {n : Node}
    (hScenario : n.IsScenario) : ∀ c ∈ s.casesOf n, c.span = n.span := by
  intro c hc
  cases hScenario with
  | plain c' =>
    rw [Selection.casesOf] at hc
    split at hc
    · cases hc
    · rw [List.mem_singleton.mp hc]
      rfl
  | outline hOutline _ =>
    rw [Selection.casesOf, hOutline, hAggregate, Bool.and_self, if_pos rfl, outlineCases, Header.outlineCase,
      if_pos hOutline] at hc
    split at hc
    · cases hc
    · split at hc
      · rw [List.mem_singleton.mp hc]
        rfl
      · cases hc

theorem Selection.casesOfAll_eq_flatMap (s : Selection) (nodes : List Node) :
    s.casesOfAll nodes = nodes.flatMap s.casesOf := by
  induction nodes with
  | nil => rfl
  | cons n rest ih => rw [Selection.casesOfAll, List.flatMap_cons, ih]

theorem Selection.collect_singleton (s : Selection) {file : FeatureFile} (hFile : file.root = some suite)
    (hRoot : suite.header.isOutline = false) (hExcluded : suite.header.id ∉ s.excluded) :
    s.collect [file] = suite.children.flatMap s.casesOf := by
  have hContains : ¬s.excluded.contains suite.header.id = true := by
    rwa [List.contains_iff_mem]
  rw [Selection.collect, List.flatMap_singleton, hFile, ← Selection.casesOfAll_eq_flatMap]
  change s.casesOf (.suite suite.header suite.children) = _
  rw [Selection.casesOf, if_neg hContains, hRoot]
  rfl

/-- Where every outline has a row, the rows with their outlines in their place, and repeats left out, are the queue of an
aggregate run. -/
theorem destutter_collect (h : build uri text generation = some suite)
    (hRows : ∀ header children, .suite header children ∈ suite.children → children ≠ []) (filter : Option String)
    {file : FeatureFile} (hFile : file.root = some suite) :
    ((Selection.collect { filter } [file]).map (standIn suite)).destutter (· ≠ ·) =
      Selection.collect { filter, aggregatesOutlines := true } [file] := by
  obtain ⟨hRoot, hScenarios⟩ := isScenario_of_mem_children h
  rw [Selection.collect_singleton _ hFile hRoot (by simp), Selection.collect_singleton _ hFile hRoot (by simp),
    List.map_flatMap]
  apply destutter_flatMap
  · intro n hn
    exact shortRun_casesOf h hRows filter hn
  · apply (pairwise_line_children h).2.imp_of_mem
    rintro m n hm hn hLines a ha _ hb rfl
    have hLine := hLines m (mem_walk_self m) n (mem_walk_self n)
    rw [← span_of_mem_casesOf _ rfl (hScenarios m hm) a ha, ← span_of_mem_casesOf _ rfl (hScenarios n hn) a hb] at hLine
    exact Nat.lt_irrefl _ hLine

end

/-- By the text of its template an outline passes with both rows, which an aggregate run has as one case. -/
theorem destutter_collect_of_two_rows :
    ∃ suite, build "f" "Feature: F\nScenario: a\nScenario Outline: say <n>\nExamples:\n|n|\n|1|\n|2|" 0 = some suite ∧
      (∀ header children, .suite header children ∈ suite.children → children ≠ []) ∧
      (Selection.collect { filter := some "<n>" } [⟨"f", some suite, 0⟩]).map Case.name = ["say 1", "say 2"] ∧
      ((Selection.collect { filter := some "<n>" } [⟨"f", some suite, 0⟩]).map (standIn suite)).destutter (· ≠ ·) =
        Selection.collect { filter := some "<n>", aggregatesOutlines := true } [⟨"f", some suite, 0⟩] := by
  have hBuilt : ∃ suite ∈ build "f" "Feature: F\nScenario: a\nScenario Outline: say <n>\nExamples:\n|n|\n|1|\n|2|" 0,
      (∀ n ∈ suite.children, n.case?.isSome ∨ n.walk.length ≠ 1) ∧
        (Selection.collect { filter := some "<n>" } [⟨"f", some suite, 0⟩]).map Case.name = ["say 1", "say 2"] := by
    decide +kernel
  obtain ⟨suite, hBuild, hNodes, hNames⟩ := hBuilt
  have hRows : ∀ header children, .suite header children ∈ suite.children → children ≠ [] := by
    rintro header _ hMem rfl
    exact (hNodes _ hMem).elim Bool.noConfusion fun hLength => hLength rfl
  exact ⟨suite, hBuild, hRows, hNames, destutter_collect hBuild hRows (some "<n>") rfl⟩

end ScenarioRunner.Run
