import ScenarioRunner.Proofs.Feature.Identity
import ScenarioRunner.Proofs.Text.Lines
import ScenarioRunner.Proofs.Text.Plain

/-!
# The names in a tree

Headers and cells stand each on one line, and a row is named with the characters of a header and of its cells. Main
statement: every name in a tree is made of characters of the file, and has no line feed.
-/

namespace ScenarioRunner.Feature

open ScenarioRunner.Text

set_option autoImplicit false

/-! ## The texts of an event -/

def EventKind.texts : EventKind → List String
  | .feature name => [name]
  | .scenario name _ => [name]
  | .examples => []
  | .tableRow cells => cells

theorem subset_of_nameAfter? {keyword name : String} {s : List Char} (h : nameAfter? keyword s = some name) :
    name.toList ⊆ s := by
  rw [nameAfter?] at h
  split at h
  · cases h
  · cases h
  · next rest _ hAfter =>
    cases h
    rw [(after?_eq_some_iff _ _ _).mp hAfter, trimmedText, String.toList_ofList]
    exact List.Subset.trans (trim_subset rest) (List.subset_append_right _ _)

theorem subset_of_insidePipes? {s inside : List Char} (h : insidePipes? s = some inside) : inside ⊆ s := by
  rw [insidePipes?.eq_def] at h
  split at h
  · next rest =>
    split_ifs at h
    cases h
    exact List.subset_cons_of_subset '|' (List.dropLast_subset rest)
  · cases h

theorem subset_of_cellsOf? {s : List Char} {cells : List String} (h : cellsOf? s = some cells) :
    ∀ cell ∈ cells, cell.toList ⊆ s := by
  obtain ⟨inside, hInside, rfl⟩ := Option.map_eq_some_iff.mp h
  intro cell hCell
  obtain ⟨piece, hPiece, rfl⟩ := List.mem_map.mp hCell
  rw [trimmedText, String.toList_ofList]
  calc
    trim piece ⊆ piece := trim_subset piece
    _ ⊆ inside := (of_mem_pieces hPiece).2
    _ ⊆ trimRight s := subset_of_insidePipes? hInside
    _ ⊆ s := dropTrailing_subset isBlank s

theorem subset_of_ofLine? {inExamples : Bool} {line : List Char} {kind : EventKind}
    (h : EventKind.ofLine? inExamples line = some kind) : ∀ text ∈ kind.texts, text.toList ⊆ line := by
  have hTrim : trimLeft line ⊆ line := (List.dropWhile_sublist isBlank).subset
  have hName : ∀ keyword name, nameAfter? keyword (trimLeft line) = some name →
      ∀ text ∈ [name], text.toList ⊆ line := by
    intro keyword name hAfter text hText
    obtain rfl := List.mem_singleton.mp hText
    exact List.Subset.trans (subset_of_nameAfter? hAfter) hTrim
  simp only [EventKind.ofLine?] at h
  split at h
  · next name hAfter =>
    cases h
    exact hName _ name hAfter
  split at h
  · next name hAfter =>
    cases h
    exact hName _ name hAfter
  split at h
  · next name hAfter =>
    cases h
    exact hName _ name hAfter
  split_ifs at h with hExamples hOpen
  · cases h
    simp [EventKind.texts]
  · obtain ⟨cells, hCells, rfl⟩ := Option.map_eq_some_iff.mp h
    intro cell hCell
    exact List.Subset.trans (subset_of_cellsOf? hCells cell hCell) hTrim

theorem exists_line_of_mem_scanLines {inExamples : Bool} {number : Nat} {lines : List (List Char)} {e : Event}
    (h : e ∈ scanLines inExamples number lines) : ∃ line ∈ lines, ∀ text ∈ e.kind.texts, text.toList ⊆ line := by
  induction lines generalizing inExamples number with
  | nil => cases h
  | cons raw lines ih =>
    rw [scanLines] at h
    split at h
    · obtain ⟨line, hLine, hTexts⟩ := ih h
      exact ⟨line, List.mem_cons_of_mem raw hLine, hTexts⟩
    · next kind hKind =>
      rcases List.mem_cons.mp h with rfl | h
      · refine ⟨raw, List.mem_cons_self, ?_⟩
        intro text hText
        exact List.Subset.trans (subset_of_ofLine? hKind text hText) (dropTrailing_subset _ raw)
      · obtain ⟨line, hLine, hTexts⟩ := ih h
        exact ⟨line, List.mem_cons_of_mem raw hLine, hTexts⟩

def InLine (text : String) (c : Char) : Prop :=
  c ∈ text.toList ∧ c ≠ '\n'

theorem inLine_of_mem_scan {text : String} {e : Event} (h : e ∈ scan text) :
    ∀ t ∈ e.kind.texts, ∀ c ∈ t.toList, InLine text c := by
  obtain ⟨line, hLine, hTexts⟩ := exists_line_of_mem_scanLines h
  obtain ⟨hFeed, hSubset⟩ := of_mem_pieces hLine
  intro t ht c hc
  refine ⟨hSubset (hTexts t ht hc), ?_⟩
  rintro rfl
  exact hFeed (hTexts t ht hc)

/-! ## Names of rows -/

theorem mem_of_mem_fill {header value s : List Char} {c : Char} (h : c ∈ fill header value s) : c ∈ value ∨ c ∈ s := by
  fun_induction fill header value s with
  | case1 => cases h
  | case2 s rest hAfter ih =>
    rcases List.mem_append.mp h with h | h
    · exact .inl h
    · rw [(after?_eq_some_iff _ _ _).mp hAfter]
      rcases ih h with h | h
      · exact .inl h
      · exact .inr (by simp [h])
  | case3 s _ ih =>
    rcases List.mem_cons.mp h with rfl | h
    · exact .inr List.mem_cons_self
    · exact (ih h).imp_right (List.mem_cons_of_mem _)
  | case4 d s _ ih =>
    rcases List.mem_cons.mp h with rfl | h
    · exact .inr List.mem_cons_self
    · exact (ih h).imp_right (List.mem_cons_of_mem _)

theorem forall_substitute {p : Char → Prop} {template : String} {headers values : List String}
    (hTemplate : ∀ c ∈ template.toList, p c) (hValues : ∀ value ∈ values, ∀ c ∈ value.toList, p c) :
    ∀ c ∈ (substitute template headers values).toList, p c := by
  have hColumns : ∀ column ∈ headers.zip values, ∀ c ∈ column.2.toList, p c := by
    intro column hColumn
    exact hValues column.2 (List.of_mem_zip hColumn).2
  rw [substitute, String.toList_ofList]
  generalize template.toList = name at hTemplate ⊢
  generalize headers.zip values = columns at hColumns ⊢
  induction columns generalizing name with
  | nil => exact hTemplate
  | cons column columns ih =>
    have hFilled : ∀ c ∈ fill column.1.toList column.2.toList name, p c := by
      intro c hc
      rcases mem_of_mem_fill hc with hc | hc
      · exact hColumns column List.mem_cons_self c hc
      · exact hTemplate c hc
    exact ih _ hFilled fun next hNext => hColumns next (List.mem_cons_of_mem column hNext)

/-! ## Names of nodes -/

/-- What the steps of a draft keep. The open outline has a clause of its own, as its rows are named after it. -/
structure Draft.NamesHave (p : Char → Prop) (d : Draft) : Prop where
  names : ∀ name ∈ d.names, ∀ c ∈ name.toList, p c
  outline : ∀ header rows, d.outline = some (header, rows) → ∀ c ∈ header.name.toList, p c

section

variable {p : Char → Prop} {uri : String} {generation : Int}

theorem Draft.NamesHave.forall_concat {d : Draft} (h : d.NamesHave p) {name : String} (hName : ∀ c ∈ name.toList, p c) :
    ∀ other ∈ d.names ++ [name], ∀ c ∈ other.toList, p c := by
  intro other hOther
  rcases List.mem_append.mp hOther with hOther | hOther
  · exact h.names other hOther
  · obtain rfl := List.mem_singleton.mp hOther
    exact hName

theorem Draft.NamesHave.addFeature {d : Draft} (h : d.NamesHave p) (span : Span) {name : String}
    (hName : ∀ c ∈ name.toList, p c) : (d.addFeature uri generation span name).NamesHave p := by
  rw [Draft.addFeature]
  split
  · exact h
  · exact ⟨h.forall_concat hName, by simp⟩

theorem Draft.NamesHave.addScenario {d : Draft} (h : d.NamesHave p) (span : Span) {name : String} (isOutline : Bool)
    (hName : ∀ c ∈ name.toList, p c) : (d.addScenario uri generation span name isOutline).NamesHave p := by
  rw [Draft.addScenario]
  split
  · exact ⟨h.names, by simp⟩
  · cases isOutline with
    | true =>
      refine ⟨h.forall_concat hName, ?_⟩
      rintro _ _ ⟨rfl, rfl⟩
      exact hName
    | false => exact ⟨h.forall_concat hName, by simp⟩

theorem Draft.NamesHave.addRow {d : Draft} (h : d.NamesHave p) (span : Span) {cells : List String}
    (hCells : ∀ cell ∈ cells, ∀ c ∈ cell.toList, p c) : (d.addRow uri generation span cells).NamesHave p := by
  rw [Draft.addRow]
  split
  · exact ⟨h.names, h.outline⟩
  · next header rows headers hOutline _ =>
    have hHeader := h.outline header rows hOutline
    refine ⟨h.forall_concat (forall_substitute hHeader hCells), ?_⟩
    rintro _ _ ⟨rfl, rfl⟩
    exact hHeader
  · exact h

theorem Draft.NamesHave.add {d : Draft} (h : d.NamesHave p) {e : Event}
    (hTexts : ∀ text ∈ e.kind.texts, ∀ c ∈ text.toList, p c) : (d.add uri generation e).NamesHave p := by
  obtain ⟨line, width, kind⟩ := e
  cases kind with
  | feature name => exact h.addFeature _ (hTexts name List.mem_cons_self)
  | scenario name isOutline => exact h.addScenario _ isOutline (hTexts name List.mem_cons_self)
  | examples => exact ⟨h.names, h.outline⟩
  | tableRow cells => exact h.addRow _ hTexts

theorem namesHave_ofEvents {events : List Event} (h : ∀ e ∈ events, ∀ text ∈ e.kind.texts, ∀ c ∈ text.toList, p c) :
    (Draft.ofEvents uri generation events).NamesHave p := by
  have hStart : Draft.NamesHave p {} := ⟨by simp, by simp⟩
  rw [Draft.ofEvents]
  generalize ({} : Draft) = d at hStart ⊢
  induction events generalizing d with
  | nil => exact hStart
  | cons e events ih =>
    apply ih
    · intro f hf
      exact h f (List.mem_cons_of_mem e hf)
    · exact hStart.add (h e List.mem_cons_self)

theorem map_name_walk_of_build {text : String} {suite : Suite} (h : build uri text generation = some suite) :
    suite.walk.map Node.name = (Draft.ofEvents uri generation (scan text)).names := by
  have hFirst := congrArg (List.map Prod.fst) (map_label_walk_of_build generation h)
  rw [labelsOf, List.map_map, List.map_map] at hFirst
  exact hFirst.trans (map_fst_occurrences _)

theorem inLine_of_mem_name {text : String} {suite : Suite} (h : build uri text generation = some suite) {n : Node}
    (hn : n ∈ suite.walk) : ∀ c ∈ n.name.toList, InLine text c := by
  have hNames : (Draft.ofEvents uri generation (scan text)).NamesHave (InLine text) :=
    namesHave_ofEvents fun e he => inLine_of_mem_scan he
  apply hNames.names
  rw [← map_name_walk_of_build h]
  exact List.mem_map_of_mem hn

end

end ScenarioRunner.Feature
