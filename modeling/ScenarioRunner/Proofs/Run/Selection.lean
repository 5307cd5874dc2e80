import Mathlib.Tactic.Common
import ScenarioRunner.Proofs.Feature.Placement
import ScenarioRunner.Run.Selection

/-!
# What is selected

Main statement: the queue has, in the order of the walk, every case that passes the filter and has nothing excluded at or
above it; in an aggregate run an outline with a match stands for everything below it. Files without a match add nothing.
-/

namespace ScenarioRunner.Run

open ScenarioRunner.Feature

set_option autoImplicit false

/-! ## Nodes and what they add to the queue -/

def placedIn (files : List FeatureFile) : List Placed :=
  files.flatMap fun file => (file.root.map Suite.placed).getD []

/-- Neither the node nor a suite above it is excluded. -/
def Selection.Admits (s : Selection) (p : Placed) : Prop :=
  p.node.id ∉ s.excluded ∧ ∀ header ∈ p.above, header.id ∉ s.excluded

instance (s : Selection) (p : Placed) : Decidable (s.Admits p) :=
  inferInstanceAs (Decidable (_ ∧ ∀ header ∈ p.above, _))

def Selection.rowAt? (s : Selection) (p : Placed) : Option Case :=
  match p.node with
  | .case c => if s.Admits p ∧ c.passes s.filter = true then some c else none
  | .suite _ _ => none

/-- What a node adds to the queue of an aggregate run. Nothing inside an outline is run by itself. -/
def Selection.aggregateAt? (s : Selection) (p : Placed) : Option Case :=
  if p.InOutline then none
  else
    match p.node with
    | .case _ => s.rowAt? p
    | .suite header children =>
      if header.isOutline = true ∧ s.Admits p ∧ Suite.containsMatch ⟨header, children⟩ s.filter = true then
        header.outlineCase.toOption
      else none

def Selection.caseAt? (s : Selection) : Placed → Option Case :=
  if s.aggregatesOutlines then s.aggregateAt? else s.rowAt?

inductive Selection.Adds (s : Selection) (p : Placed) : Case → Prop where
  | case {c : Case} (hNode : p.node = .case c) (hAdmits : s.Admits p) (hPasses : c.passes s.filter = true)
      (hApart : s.aggregatesOutlines = true → ¬p.InOutline) : s.Adds p c
  | outline {header : Header} {children : List Node} {c : Case} (hNode : p.node = .suite header children)
      (hAdmits : s.Admits p) (hMatch : Suite.containsMatch ⟨header, children⟩ s.filter = true)
      (hCase : header.outlineCase = .ok c) (hApart : ¬p.InOutline) : s.Adds p c

section

variable {s : Selection} {p : Placed}

theorem Selection.adds_of_rowAt? {c : Case} (h : s.rowAt? p = some c)
    (hApart : s.aggregatesOutlines = true → ¬p.InOutline) : s.Adds p c := by
  rw [Selection.rowAt?] at h
  split at h
  · next c' hNode =>
    split_ifs at h with hRow
    cases h
    exact .case hNode hRow.1 hRow.2 hApart
  · cases h

theorem Selection.adds_of_caseAt? {c : Case} (h : s.caseAt? p = some c) : s.Adds p c := by
  rw [Selection.caseAt?] at h
  split_ifs at h with hAggregate
  · rw [Selection.aggregateAt?] at h
    split_ifs at h with hApart
    split at h
    · exact Selection.adds_of_rowAt? h fun _ => hApart
    · next header children hNode =>
      split_ifs at h with hSuite
      obtain ⟨-, hAdmits, hMatch⟩ := hSuite
      cases hCase : header.outlineCase with
      | error fault =>
        rw [hCase] at h
        cases h
      | ok template =>
        rw [hCase] at h
        cases h
        exact .outline hNode hAdmits hMatch hCase hApart
  · exact Selection.adds_of_rowAt? h fun hSome => absurd hSome hAggregate

theorem Selection.caseAt?_eq_none (h : ∀ c, ¬s.Adds p c) : s.caseAt? p = none := by
  cases hCase : s.caseAt? p with
  | none => rfl
  | some c => exact absurd (Selection.adds_of_caseAt? hCase) (h c)

theorem Selection.caseAt?_of_not_admits (h : ¬s.Admits p) : s.caseAt? p = none := by
  apply Selection.caseAt?_eq_none
  intro c hAdds
  cases hAdds with
  | case hNode hAdmits hPasses hApart => exact h hAdmits
  | outline hNode hAdmits hMatch hCase hApart => exact h hAdmits

theorem Selection.caseAt?_of_inOutline (hAggregate : s.aggregatesOutlines = true) (h : p.InOutline) :
    s.caseAt? p = none := by
  apply Selection.caseAt?_eq_none
  intro c hAdds
  cases hAdds with
  | case hNode hAdmits hPasses hApart => exact hApart hAggregate h
  | outline hNode hAdmits hMatch hCase hApart => exact hApart h

end

/-! ## The queue -/

structure Selection.Enters (s : Selection) (above : List Header) : Prop where
  admitted : ∀ header ∈ above, header.id ∉ s.excluded
  apart : s.aggregatesOutlines = true → ∀ header ∈ above, header.isOutline = false

section

variable {s : Selection} {above : List Header}

theorem Selection.Enters.concat (h : s.Enters above) {header : Header} (hExcluded : header.id ∉ s.excluded)
    (hOutline : s.aggregatesOutlines = true → header.isOutline = false) : s.Enters (above ++ [header]) := by
  constructor
  · intro other hOther
    rcases List.mem_append.mp hOther with hOther | hOther
    · exact h.admitted other hOther
    · obtain rfl := List.mem_singleton.mp hOther
      exact hExcluded
  · intro hAggregate other hOther
    rcases List.mem_append.mp hOther with hOther | hOther
    · exact h.apart hAggregate other hOther
    · obtain rfl := List.mem_singleton.mp hOther
      exact hOutline hAggregate

theorem Selection.Enters.admits_iff (h : s.Enters above) (n : Node) : s.Admits ⟨above, n⟩ ↔ n.id ∉ s.excluded :=
  ⟨And.left, fun hNode => ⟨hNode, h.admitted⟩⟩

theorem Selection.Enters.not_inOutline (h : s.Enters above) (hAggregate : s.aggregatesOutlines = true) (n : Node) :
    ¬Placed.InOutline ⟨above, n⟩ := by
  rintro ⟨header, hHeader, hOutline⟩
  rw [h.apart hAggregate header hHeader] at hOutline
  cases hOutline

theorem Selection.Enters.caseAt?_case (h : s.Enters above) (c : Case) :
    s.caseAt? ⟨above, .case c⟩ = if c.id ∉ s.excluded ∧ c.passes s.filter = true then some c else none := by
  have hRow : s.rowAt? ⟨above, .case c⟩ =
      if c.id ∉ s.excluded ∧ c.passes s.filter = true then some c else none := by
    simp only [Selection.rowAt?, h.admits_iff, Node.id]
  rw [Selection.caseAt?]
  split
  · next hAggregate => rw [Selection.aggregateAt?, if_neg (h.not_inOutline hAggregate _), hRow]
  · exact hRow

theorem Selection.Enters.caseAt?_suite (h : s.Enters above) (header : Header) (children : List Node)
    (hExcluded : header.id ∉ s.excluded) :
    (s.caseAt? ⟨above, .suite header children⟩).toList =
      if header.isOutline && s.aggregatesOutlines then outlineCases s.filter ⟨header, children⟩ else [] := by
  rw [Selection.caseAt?]
  cases hAggregate : s.aggregatesOutlines with
  | false => simp [Selection.rowAt?]
  | true =>
    rw [if_pos rfl, Selection.aggregateAt?, if_neg (h.not_inOutline hAggregate _), Bool.and_true]
    simp only [h.admits_iff, Node.id, hExcluded, not_false_eq_true, true_and, outlineCases]
    cases header.isOutline <;> cases Suite.containsMatch ⟨header, children⟩ s.filter <;> simp

theorem toList_append_filterMap {α β : Type} (f : α → Option β) (a : α) (l : List α) :
    (a :: l).filterMap f = (f a).toList ++ l.filterMap f := by
  cases h : f a <;> simp [h]

end

mutual

theorem Selection.Enters.filterMap_caseAt? {s : Selection} {above : List Header} (h : s.Enters above) (n : Node) :
    (n.placedUnder above).filterMap s.caseAt? = s.casesOf n := by
  cases n with
  | case c =>
    rw [Node.placedUnder, toList_append_filterMap, h.caseAt?_case, Selection.casesOf]
    by_cases hExcluded : c.id ∈ s.excluded <;> cases hPasses : c.passes s.filter <;> simp [hExcluded]
  | suite header children =>
    have hBelow : ∀ p ∈ placedAllUnder (above ++ [header]) children, header ∈ p.above := by
      intro p hp
      exact above_subset_of_mem_all p hp (by simp)
    have hNone : (∀ p ∈ placedAllUnder (above ++ [header]) children, s.caseAt? p = none) →
        (placedAllUnder (above ++ [header]) children).filterMap s.caseAt? = [] :=
      List.filterMap_eq_nil_iff.mpr
    rw [Node.placedUnder, toList_append_filterMap, Selection.casesOf]
    have hContains : s.excluded.contains header.id = true ↔ header.id ∈ s.excluded := List.contains_iff_mem
    by_cases hExcluded : header.id ∈ s.excluded
    · have hFirst : s.caseAt? ⟨above, .suite header children⟩ = none :=
        Selection.caseAt?_of_not_admits fun hAdmits => hAdmits.1 hExcluded
      have hRest := hNone fun p hp => Selection.caseAt?_of_not_admits fun hAdmits =>
        hAdmits.2 header (hBelow p hp) hExcluded
      rw [hFirst, hRest, if_pos (hContains.mpr hExcluded)]
      rfl
    · rw [h.caseAt?_suite header children hExcluded, if_neg (hContains.not.mpr hExcluded)]
      by_cases hOutline : (header.isOutline && s.aggregatesOutlines) = true
      · obtain ⟨hHeader, hAggregate⟩ := Bool.and_eq_true_iff.mp hOutline
        have hRest := hNone fun p hp => Selection.caseAt?_of_inOutline hAggregate ⟨header, hBelow p hp, hHeader⟩
        rw [if_pos hOutline, if_pos hOutline, hRest, List.append_nil]
      · have hEnters : s.Enters (above ++ [header]) := by
          apply h.concat hExcluded
          intro hAggregate
          simpa [hAggregate] using hOutline
        rw [if_neg hOutline, if_neg hOutline, List.nil_append, hEnters.filterMap_caseAt?_all children]

theorem Selection.Enters.filterMap_caseAt?_all {s : Selection} {above : List Header} (h : s.Enters above)
    (nodes : List Node) :
    (placedAllUnder above nodes).filterMap s.caseAt? = s.casesOfAll nodes := by
  cases nodes with
  | nil => rfl
  | cons n rest =>
    rw [placedAllUnder, List.filterMap_append, h.filterMap_caseAt? n, h.filterMap_caseAt?_all rest, Selection.casesOfAll]

end

theorem Selection.enters_nil (s : Selection) : s.Enters [] :=
  ⟨by simp, by simp⟩

theorem Selection.collect_eq_filterMap (s : Selection) (files : List FeatureFile) :
    s.collect files = (placedIn files).filterMap s.caseAt? := by
  rw [Selection.collect, placedIn, List.filterMap_flatMap]
  congr 1
  funext file
  cases file.root with
  | none => rfl
  | some suite => exact (s.enters_nil.filterMap_caseAt? suite.node).symm

/-! ## Files without a match -/

theorem Selection.caseAt?_of_not_containsMatch {s : Selection} {suite : Suite}
    (h : suite.containsMatch s.filter = false) : ∀ p ∈ suite.placed, s.caseAt? p = none := by
  obtain ⟨hFilter, hWalk⟩ := Bool.or_eq_false_iff.mp h
  rw [List.any_eq_false] at hWalk
  intro p hp
  have hMem := suite.node_mem_walk hp
  apply Selection.caseAt?_eq_none
  intro c hAdds
  cases hAdds with
  | case hNode hAdmits hPasses hApart =>
    rw [hNode] at hMem
    exact hWalk _ hMem hPasses
  | outline hNode hAdmits hMatch hCase hApart =>
    rw [hNode] at hMem
    rw [Suite.containsMatch, hFilter, Bool.false_or, List.any_eq_true] at hMatch
    obtain ⟨n, hn, hPasses⟩ := hMatch
    exact hWalk n (walk_subset_of_mem hMem hn) hPasses

theorem Selection.collect_cons (s : Selection) (file : FeatureFile) (files : List FeatureFile) :
    s.collect (file :: files) = s.collect [file] ++ s.collect files := by
  rw [Selection.collect_eq_filterMap, Selection.collect_eq_filterMap, Selection.collect_eq_filterMap,
    ← List.filterMap_append, placedIn, placedIn, placedIn, ← List.flatMap_append]
  rfl

theorem Selection.collect_of_not_containsMatch {s : Selection} {file : FeatureFile}
    (h : file.root.any (·.containsMatch s.filter) = false) : s.collect [file] = [] := by
  rw [Selection.collect_eq_filterMap, placedIn, List.flatMap_singleton, List.filterMap_eq_nil_iff]
  cases hRoot : file.root with
  | none => simp
  | some suite =>
    rw [hRoot] at h
    exact Selection.caseAt?_of_not_containsMatch h

theorem Selection.collect_filter_containsMatch (s : Selection) (files : List FeatureFile) :
    s.collect (files.filter fun file => file.root.any (·.containsMatch s.filter)) = s.collect files := by
  induction files with
  | nil => rfl
  | cons file files ih =>
    rw [List.filter_cons, s.collect_cons file files]
    split
    · rw [Selection.collect_cons, ih]
    · next hMatch =>
      rw [Bool.not_eq_true] at hMatch
      rw [Selection.collect_of_not_containsMatch hMatch, List.nil_append, ih]

/-! ## Both modes -/

theorem map_node_placedIn (files : List FeatureFile) :
    (placedIn files).map Placed.node = files.flatMap fun file => (file.root.map Suite.walk).getD [] := by
  rw [placedIn, List.map_flatMap]
  congr 1
  funext file
  cases file.root with
  | none => rfl
  | some suite => exact suite.map_node_placed

/-- The queue of either mode is what the nodes add to it in the order of the files and of their walks. Leaving out the
files without a match changes nothing. In the tree of a file no outline stands inside another, and an outline has a match
if its name or one of its rows passes. -/
theorem collect_exact (s : Selection) (files : List FeatureFile) :
    (placedIn files).map Placed.node = (files.flatMap fun file => (file.root.map Suite.walk).getD []) ∧
      Selection.collect { s with aggregatesOutlines := false } files = (placedIn files).filterMap s.rowAt? ∧
      Selection.collect { s with aggregatesOutlines := true } files = (placedIn files).filterMap s.aggregateAt? ∧
      s.collect (files.filter fun file => file.root.any (·.containsMatch s.filter)) = s.collect files ∧
      ∀ uri text generation suite, build uri text generation = some suite →
        ∀ p ∈ suite.placed, ∀ header children, p.node = .suite header children →
          ¬p.InOutline ∧
          (header.isOutline = true → (Suite.containsMatch ⟨header, children⟩ s.filter = true ↔
            passes s.filter header.name = true ∨ ∃ row, .case row ∈ children ∧ row.passes s.filter = true)) := by
  refine ⟨map_node_placedIn files, ?_, ?_, s.collect_filter_containsMatch files, ?_⟩
  · exact Selection.collect_eq_filterMap { s with aggregatesOutlines := false } files
  · exact Selection.collect_eq_filterMap { s with aggregatesOutlines := true } files
  · intro uri text generation suite hBuild p hp header children hNode
    obtain ⟨hRoot, -⟩ := isScenario_of_mem_children hBuild
    cases places_of_mem_placed hBuild hp with
    | root =>
      cases hNode
      refine ⟨by simp [Placed.InOutline], ?_⟩
      intro hOutline
      rw [hRoot] at hOutline
      cases hOutline
    | scenario h => cases hNode
    | outline h hOutline =>
      cases hNode
      refine ⟨by simp [Placed.InOutline, hRoot], ?_⟩
      intro _
      rw [containsMatch_outline hOutline]
      simp
    | row h hOutline hRow => cases hNode

/-- One scenario has no match and one outline is excluded. The other outline passes by the text of its template, with both
of its rows. -/
theorem collect_exact_of_two_outlines :
    ∃ files : List FeatureFile, files.map (·.root.isSome) = [true] ∧
      (Selection.collect { filter := some "<n>", excluded := ["f/hear <n>"] } files).map Case.name =
        ["b <n>", "say 1", "say 2"] ∧
      (Selection.collect { filter := some "<n>", excluded := ["f/hear <n>"], aggregatesOutlines := true } files).map
        Case.name = ["b <n>", "say <n>"] := by
  have hNames : ∃ suite ∈ build "f" ("Feature: F\nScenario: a\nScenario: b <n>\n" ++
      "Scenario Outline: say <n>\nExamples:\n|n|\n|1|\n|2|\nScenario Outline: hear <n>\nExamples:\n|n|\n|1|") 0,
      (((placedIn [⟨"f", some suite, 0⟩]).filterMap
        (Selection.rowAt? { filter := some "<n>", excluded := ["f/hear <n>"] })).map Case.name =
          ["b <n>", "say 1", "say 2"]) ∧
      (((placedIn [⟨"f", some suite, 0⟩]).filterMap
        (Selection.aggregateAt? { filter := some "<n>", excluded := ["f/hear <n>"] })).map Case.name =
          ["b <n>", "say <n>"]) := by
    decide +kernel
  obtain ⟨suite, -, hRows, hAggregate⟩ := hNames
  obtain ⟨-, hRowQueue, hAggregateQueue, -⟩ :=
    collect_exact { filter := some "<n>", excluded := ["f/hear <n>"] } [⟨"f", some suite, 0⟩]
  refine ⟨[⟨"f", some suite, 0⟩], rfl, ?_, ?_⟩
  · rw [← hRows, ← hRowQueue]
  · rw [← hAggregate, ← hAggregateQueue]

end ScenarioRunner.Run
