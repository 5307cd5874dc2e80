import ScenarioRunner.Proofs.Report.Recovery

/-!
# Counts on a page

A page shows for each outcome how many results have it.
-/

namespace ScenarioRunner.Report.Html

open ScenarioRunner.Calendar
open ScenarioRunner.Text

set_option autoImplicit false

def textsOf (tag : String) (es : List Element) : List String :=
  (es.filter (·.tag == tag.toList)).map fun e => String.ofList e.text

def labels (page : String) : List String :=
  textsOf "div class=\"label\"" (elements page.toList)

def numbers (page : String) : List String :=
  textsOf "div class=\"number\"" (elements page.toList)

theorem textsOf_elementsOf_append {tag : String} {ps : List Part} (h : tag.toList ∉ tagsOf ps) (qs : List Part) :
    textsOf tag (elementsOf (ps ++ qs)) = textsOf tag (elementsOf qs) := by
  induction ps with
  | nil => rfl
  | cons part ps ih =>
    cases part with
    | text s => exact ih h
    | tag inside =>
      rw [tagsOf_tag, List.mem_cons, not_or] at h
      rw [List.cons_append, elementsOf, textsOf, List.filter_cons_of_neg (by simpa using Ne.symm h.1)]
      exact ih h.2

theorem textsOf_elementsOf_eq_nil {tag : String} {ps : List Part} (h : tag.toList ∉ tagsOf ps) :
    textsOf tag (elementsOf ps) = [] := by
  rw [← List.append_nil ps, textsOf_elementsOf_append h]
  rfl

theorem textsOf_cons_self (tag : String) (s : List Char) (es : List Element) :
    textsOf tag (⟨tag.toList, s⟩ :: es) = String.ofList s :: textsOf tag es := by
  rw [textsOf, List.filter_cons_of_pos (by simp), List.map_cons, textsOf]

theorem textsOf_cons_of_ne {tag : String} {other : List Char} (h : other ≠ tag.toList) (s : List Char)
    (es : List Element) : textsOf tag (⟨other, s⟩ :: es) = textsOf tag es := by
  rw [textsOf, List.filter_cons_of_neg (by simpa using h), textsOf]

/-- No tag in the block of a result is one of the given name. -/
theorem notMem_tagsOf_entryParts {tag : List Char} (e : Entry) (f : Figures)
    (hOpening : ∀ outcome, tag ≠ openingTag outcome) (hInner : tag ∉ blockTags)
    (hClose : tag ≠ "/div".toList) : tag ∉ tagsOf (entryParts e f) := by
  have hTags : tagsOf (entryParts e f) = openingTag e.outcome :: tagsOf (innerParts e f) := rfl
  have hElements := elementsOf_innerParts e f []
  rw [List.append_nil] at hElements
  rw [hTags, tagsOf, hElements, List.map_append, List.mem_cons, List.mem_append, not_or, not_or]
  refine ⟨hOpening e.outcome, ?_, ?_⟩
  · intro hMem
    obtain ⟨element, hElement, rfl⟩ := List.mem_map.mp hMem
    exact hInner (tag_mem_blockElements hElement)
  · rw [List.map_cons, List.mem_cons, not_or]
    exact ⟨hClose, List.not_mem_nil⟩

def countTags : List String :=
  ["div class=\"number\"", "div class=\"label\""]

theorem countTags_notMem_entryParts {tag : String} (h : tag ∈ countTags) (e : Entry) (f : Figures) :
    tag.toList ∉ tagsOf (entryParts e f) := by
  have hOpening : ∀ tag ∈ countTags, ∀ outcome ∈ Outcome.all, tag.toList ≠ openingTag outcome := by decide +kernel
  have hInner : ∀ tag ∈ countTags, tag.toList ∉ blockTags := by decide +kernel
  have hClose : ∀ tag ∈ countTags, tag.toList ≠ "/div".toList := by decide +kernel
  apply notMem_tagsOf_entryParts
  · exact fun outcome => hOpening tag h outcome outcome.mem_all
  · exact hInner tag h
  · exact hClose tag h

theorem countTags_notMem_headParts {tag : String} (h : tag ∈ countTags) (moment : Moment) :
    tag.toList ∉ tagsOf (headParts moment) := by
  have hClosed : ∀ tag ∈ countTags, tag.toList ∉ tagsOf openingParts ++ (tagsOf bodyParts ++ tagsOf datedParts) := by
    decide +kernel
  rw [headParts, tagsOf_append, tagsOf_text, tagsOf_append, tagsOf_text]
  exact hClosed tag h

theorem elementsOf_itemParts (outcomes : List Outcome) (outcome : Outcome) (rest : List Part) :
    elementsOf (itemParts outcomes outcome ++ rest) =
      ⟨itemTag outcome, "\n                ".toList⟩ ::
        ⟨"div class=\"number\"".toList, (toString (outcomes.count outcome)).toList⟩ ::
        ⟨"/div".toList, "\n                ".toList⟩ ::
        ⟨"div class=\"label\"".toList, (outcomeTitle outcome).toList⟩ ::
        ⟨"/div".toList, "\n            ".toList⟩ ::
        ⟨"/div".toList, leadOf (.text "\n            ".toList :: rest)⟩ :: elementsOf rest := by
  simp only [itemParts, List.cons_append, List.nil_append, elementsOf, leadOf, List.append_nil]

/-- Where every item shows one text behind the tag, the items show these texts in order. -/
theorem textsOf_items {tag : String} {outcomes : List Outcome} {value : Outcome → String}
    (h : ∀ outcome rest, textsOf tag (elementsOf (itemParts outcomes outcome ++ rest)) =
      value outcome :: textsOf tag (elementsOf rest)) (shown : List Outcome) (rest : List Part) :
    textsOf tag (elementsOf (shown.flatMap (itemParts outcomes) ++ rest)) =
      shown.map value ++ textsOf tag (elementsOf rest) := by
  induction shown with
  | nil => rfl
  | cons outcome shown ih => rw [List.flatMap_cons, List.append_assoc, h, ih, List.map_cons, List.cons_append]

theorem textsOf_number_itemParts (outcomes : List Outcome) (outcome : Outcome) (rest : List Part) :
    textsOf "div class=\"number\"" (elementsOf (itemParts outcomes outcome ++ rest)) =
      toString (outcomes.count outcome) :: textsOf "div class=\"number\"" (elementsOf rest) := by
  have hItem : ∀ outcome ∈ Outcome.all, itemTag outcome ≠ "div class=\"number\"".toList := by decide +kernel
  have hClose : "/div".toList ≠ "div class=\"number\"".toList := by decide +kernel
  have hLabel : "div class=\"label\"".toList ≠ "div class=\"number\"".toList := by decide +kernel
  rw [elementsOf_itemParts, textsOf_cons_of_ne (hItem outcome outcome.mem_all), textsOf_cons_self,
    textsOf_cons_of_ne hClose, textsOf_cons_of_ne hLabel, textsOf_cons_of_ne hClose, textsOf_cons_of_ne hClose,
    String.ofList_toList]

theorem textsOf_label_itemParts (outcomes : List Outcome) (outcome : Outcome) (rest : List Part) :
    textsOf "div class=\"label\"" (elementsOf (itemParts outcomes outcome ++ rest)) =
      outcomeTitle outcome :: textsOf "div class=\"label\"" (elementsOf rest) := by
  have hItem : ∀ outcome ∈ Outcome.all, itemTag outcome ≠ "div class=\"label\"".toList := by decide +kernel
  have hClose : "/div".toList ≠ "div class=\"label\"".toList := by decide +kernel
  have hNumber : "div class=\"number\"".toList ≠ "div class=\"label\"".toList := by decide +kernel
  rw [elementsOf_itemParts, textsOf_cons_of_ne (hItem outcome outcome.mem_all), textsOf_cons_of_ne hNumber,
    textsOf_cons_of_ne hClose, textsOf_cons_self, textsOf_cons_of_ne hClose, textsOf_cons_of_ne hClose,
    String.ofList_toList]

def laterParts (entries : List Entry) (fs : List Figures) : List Part :=
  [.text "\n        ".toList, .tag "/div".toList, .text "\n\n".toList, .text "        ".toList] ++
    ((List.zipWith entryParts entries fs).flatten ++ tailParts)

theorem countTags_notMem_laterParts {tag : String} (h : tag ∈ countTags) (entries : List Entry) (fs : List Figures) :
    tag.toList ∉ tagsOf (laterParts entries fs) := by
  have hClose : ∀ tag ∈ countTags, tag.toList ∉ tagsOf [.text "\n        ".toList, .tag "/div".toList,
      .text "\n\n".toList, .text "        ".toList] := by decide +kernel
  have hTail : ∀ tag ∈ countTags, tag.toList ∉ tagsOf tailParts := by decide +kernel
  have hBlocks : tag.toList ∉ tagsOf (List.zipWith entryParts entries fs).flatten := by
    rw [← List.map_uncurry_zip_eq_zipWith]
    induction entries.zip fs with
    | nil => exact List.not_mem_nil
    | cons pair pairs ih =>
      rw [List.map_cons, List.flatten_cons, tagsOf_append, List.mem_append, not_or]
      exact ⟨countTags_notMem_entryParts h pair.1 pair.2, ih⟩
  rw [laterParts, tagsOf_append, tagsOf_append, List.mem_append, List.mem_append, not_or, not_or]
  exact ⟨hClose tag h, hBlocks, hTail tag h⟩

/-- All that shows counts on a page stands between its head and its results. -/
theorem textsOf_pageParts {tag : String} (h : tag ∈ countTags) (moment : Moment) (entries : List Entry)
    (fs : List Figures) : textsOf tag (elementsOf (pageParts moment entries fs)) = textsOf tag
      (elementsOf (Outcome.all.flatMap (itemParts (entries.map (·.outcome))) ++ laterParts entries fs)) := by
  have hLead : ∀ tag ∈ countTags, tag.toList ∉ tagsOf [.text "        ".toList, .tag "div class=\"summary\"".toList,
      .text "\n            ".toList] := by decide +kernel
  have hPage : pageParts moment entries fs = headParts moment ++ ([.text "        ".toList,
      .tag "div class=\"summary\"".toList, .text "\n            ".toList] ++
      (Outcome.all.flatMap (itemParts (entries.map (·.outcome))) ++ laterParts entries fs)) := by
    simp only [pageParts, summaryParts, laterParts, List.append_assoc, List.cons_append, List.nil_append]
  rw [hPage, textsOf_elementsOf_append (countTags_notMem_headParts h moment), textsOf_elementsOf_append (hLead tag h)]

theorem counts_page {moment : Moment} {entries : List Entry} {text : String} (h : page moment entries = .ok text) :
    labels text = Outcome.all.map outcomeTitle ∧
      numbers text = Outcome.all.map fun outcome => toString ((entries.map (·.outcome)).count outcome) := by
  obtain ⟨fs, -, hElements⟩ := exists_elements_page h
  have hLabel : "div class=\"label\"" ∈ countTags := by decide
  have hNumber : "div class=\"number\"" ∈ countTags := by decide
  constructor
  · rw [labels, hElements, textsOf_pageParts hLabel, textsOf_items (textsOf_label_itemParts _),
      textsOf_elementsOf_eq_nil (countTags_notMem_laterParts hLabel entries fs), List.append_nil]
  · rw [numbers, hElements, textsOf_pageParts hNumber, textsOf_items (textsOf_number_itemParts _),
      textsOf_elementsOf_eq_nil (countTags_notMem_laterParts hNumber entries fs), List.append_nil]

end ScenarioRunner.Report.Html
