import Mathlib.Data.List.DropRight
import Mathlib.Data.List.Forall2
import ScenarioRunner.Proofs.Report.Page

/-!
# Texts of results on a page

Names, URIs and messages change neither the brackets nor the tags of a page, and each of them is read back from its
place.
-/

namespace ScenarioRunner.Report.Html

open ScenarioRunner.Calendar
open ScenarioRunner.Text

set_option autoImplicit false

/-! ## What a page shows -/

structure Shown where
  outcome : String
  name : String
  uri : String
  message : Option String
deriving DecidableEq

def Entry.shown (e : Entry) : Shown :=
  ⟨e.outcome.word, e.name, e.uri, shownMessage e.message⟩

def brackets (page : String) : List Char :=
  page.toList.filter isBracket

def tags (page : String) : List (List Char) :=
  (elements page.toList).map (·.tag)

def textOf? (tag : String) (block : List Element) : Option (List Char) :=
  (block.find? (·.tag == tag.toList)).map (·.text)

def beforeLast (c : Char) (s : List Char) : List Char :=
  (s.rdropWhile (· != c)).dropLast

def readText (s : List Char) : String :=
  String.ofList (unescape s)

def Shown.ofBlock (word : List Char) (block : List Element) : Shown where
  outcome := String.ofList word
  name := readText ((textOf? "strong" block).getD [])
  uri := readText (beforeLast ':' ((textOf? "p" block).getD []))
  message := (textOf? "pre" block).map readText

def blockWord? (tag : List Char) : Option (List Char) :=
  (after? "div class=\"scenario ".toList tag).map (·.takeWhile (· != '"'))

/-- The results on a page. The block of a result ends with its division. -/
def shown : List Element → List Shown
  | [] => []
  | e :: rest =>
    match blockWord? e.tag with
    | some word => Shown.ofBlock word (rest.takeWhile (·.tag != "/div".toList)) :: shown rest
    | none => shown rest

def results (page : String) : List Shown :=
  shown (elements page.toList)

theorem shown_elementsOf_append {ps : List Part} (h : ∀ tag ∈ tagsOf ps, blockWord? tag = none) (qs : List Part) :
    shown (elementsOf (ps ++ qs)) = shown (elementsOf qs) := by
  induction ps with
  | nil => rfl
  | cons part ps ih =>
    cases part with
    | text s => exact ih h
    | tag inside =>
      obtain ⟨hTag, hTags⟩ := List.forall_mem_cons.mp h
      rw [List.cons_append, elementsOf, shown, hTag]
      exact ih hTags

theorem textOf?_cons_self (tag : String) (text : List Char) (block : List Element) :
    textOf? tag (⟨tag.toList, text⟩ :: block) = some text := by
  rw [textOf?, List.find?_cons, beq_self_eq_true]
  rfl

theorem textOf?_cons_of_ne {tag : String} {other : List Char} (h : other ≠ tag.toList) (text : List Char)
    (block : List Element) : textOf? tag (⟨other, text⟩ :: block) = textOf? tag block := by
  rw [textOf?, List.find?_cons, beq_eq_false_iff_ne.mpr h]
  rfl

theorem textOf?_append {tag : String} {es : List Element} (h : ∀ e ∈ es, e.tag ≠ tag.toList) (block : List Element) :
    textOf? tag (es ++ block) = textOf? tag block := by
  induction es with
  | nil => rfl
  | cons e es ih =>
    obtain ⟨hTag, hTags⟩ := List.forall_mem_cons.mp h
    rw [List.cons_append, textOf?_cons_of_ne hTag, ih hTags]

theorem beforeLast_append {c : Char} {t : List Char} (h : c ∉ t) (s : List Char) : beforeLast c (s ++ c :: t) = s := by
  have hReverse : ∀ d ∈ t.reverse, (d != c) = true := by
    intro d hd
    exact bne_iff_ne.mpr fun hEq => h (hEq ▸ List.mem_reverse.mp hd)
  have hDrop : (s ++ c :: t).rdropWhile (· != c) = s ++ [c] := by
    rw [List.rdropWhile, List.reverse_append, List.reverse_cons, List.append_assoc, List.singleton_append,
      dropWhile_append hReverse (head_cons (by simp) s.reverse)]
    simp
  rw [beforeLast, hDrop, List.dropLast_concat]

/-! ## The block of a result -/

def timingElements (seconds : Option Float) : List Element :=
  match seconds with
  | some x => [⟨"span class=\"timing\"".toList, (Decimal.fixed 3 x).toList ++ ['s']⟩,
      ⟨"/span".toList, "\n            ".toList ++ "\n            ".toList⟩]
  | none => []

def messageElements (message : Option String) : List Element :=
  match shownMessage message with
  | some s => [⟨"/p".toList, "\n            ".toList ++ "\n            ".toList⟩,
      ⟨"pre".toList, s.toList.flatMap escapeChar⟩, ⟨"/pre".toList, "\n            ".toList ++ "\n        ".toList⟩]
  | none => [⟨"/p".toList, "\n            ".toList ++ "\n        ".toList⟩]

def blockElements (e : Entry) (f : Figures) : List Element :=
  timingElements e.elapsedSeconds ++ ⟨"strong".toList, e.name.toList.flatMap escapeChar⟩ ::
    ⟨"/strong".toList, "\n            ".toList⟩ ::
    ⟨"p".toList, e.uri.toList.flatMap escapeChar ++ ':' :: detailsText e f⟩ :: messageElements e.message

def innerParts (e : Entry) (f : Figures) : List Part :=
  (entryParts e f).drop 2

def timingTags : List (List Char) :=
  ["span class=\"timing\"".toList, "/span".toList]

def messageTags : List (List Char) :=
  ["/p".toList, "pre".toList, "/pre".toList]

def blockTags : List (List Char) :=
  timingTags ++ ["strong".toList, "/strong".toList, "p".toList] ++ messageTags

theorem tag_mem_timingElements {seconds : Option Float} {element : Element} (h : element ∈ timingElements seconds) :
    element.tag ∈ timingTags := by
  unfold timingElements at h
  split at h
  · rcases List.mem_cons.mp h with rfl | h
    · exact List.mem_cons_self
    · rw [List.mem_singleton.mp h]
      exact List.mem_cons_of_mem _ List.mem_cons_self
  · cases h

theorem tag_mem_messageElements {message : Option String} {element : Element} (h : element ∈ messageElements message) :
    element.tag ∈ messageTags := by
  unfold messageElements at h
  split at h
  · simp only [List.mem_cons, List.not_mem_nil, or_false] at h
    rcases h with rfl | rfl | rfl <;> simp [messageTags]
  · rw [List.mem_singleton.mp h]
    exact List.mem_cons_self

theorem tag_mem_blockElements {e : Entry} {f : Figures} {element : Element} (h : element ∈ blockElements e f) :
    element.tag ∈ blockTags := by
  rw [blockElements, List.mem_append] at h
  rcases h with h | h
  · exact List.mem_append_left _ (List.mem_append_left _ (tag_mem_timingElements h))
  · simp only [List.mem_cons] at h
    rcases h with rfl | rfl | rfl | h
    · simp [blockTags]
    · simp [blockTags]
    · simp [blockTags]
    · exact List.mem_append_right _ (tag_mem_messageElements h)

theorem elementsOf_innerParts (e : Entry) (f : Figures) (rest : List Part) :
    elementsOf (innerParts e f ++ rest) =
      blockElements e f ++ ⟨"/div".toList, leadOf (.text "\n        ".toList :: rest)⟩ :: elementsOf rest := by
  unfold innerParts entryParts blockElements timingParts messageParts timingElements messageElements
  cases e.elapsedSeconds <;> cases shownMessage e.message <;>
    simp only [List.drop, List.nil_append, List.cons_append, elementsOf, leadOf, List.append_nil]

theorem takeWhile_blockElements (e : Entry) (f : Figures) (text : List Char) (rest : List Element) :
    (blockElements e f ++ ⟨"/div".toList, text⟩ :: rest).takeWhile (·.tag != "/div".toList) = blockElements e f := by
  have hOpen : ∀ element ∈ blockElements e f, (element.tag != "/div".toList) = true := by
    intro element hElement
    have hNames : ∀ tag ∈ blockTags, (tag != "/div".toList) = true := by decide +kernel
    exact hNames _ (tag_mem_blockElements hElement)
  rw [List.takeWhile_append_of_pos hOpen, List.takeWhile_cons_of_neg (by simp), List.append_nil]

theorem blockWord?_opening (outcome : Outcome) :
    blockWord? (openingTag outcome) = some outcome.word.toList := by
  rw [blockWord?, openingTag_eq, after?_append, Option.map_some]
  cases outcome <;> decide

theorem blockWord?_innerParts (e : Entry) (f : Figures) : ∀ tag ∈ tagsOf (innerParts e f), blockWord? tag = none := by
  have hNames : ∀ tag ∈ blockTags, blockWord? tag = none := by decide +kernel
  have hClose : blockWord? "/div".toList = none := by decide +kernel
  have hElements := elementsOf_innerParts e f []
  rw [List.append_nil] at hElements
  intro tag hTag
  rw [tagsOf, hElements, List.map_append, List.mem_append] at hTag
  rcases hTag with hTag | hTag
  · obtain ⟨element, hElement, rfl⟩ := List.mem_map.mp hTag
    exact hNames _ (tag_mem_blockElements hElement)
  · rw [List.mem_singleton.mp hTag]
    exact hClose

theorem textOf?_timingElements {tag : String} (h : tag.toList ∉ timingTags) (seconds : Option Float)
    (block : List Element) : textOf? tag (timingElements seconds ++ block) = textOf? tag block := by
  apply textOf?_append
  intro element hElement hTag
  rw [← hTag] at h
  exact h (tag_mem_timingElements hElement)

/-- The block of a result shows its name, its URI and its message. -/
theorem ofBlock_blockElements (e : Entry) {f : Figures} (h : f.IsSound) :
    Shown.ofBlock e.outcome.word.toList (blockElements e f) = Entry.shown e := by
  have hName : textOf? "strong" (blockElements e f) = some (e.name.toList.flatMap escapeChar) := by
    rw [blockElements, textOf?_timingElements (by decide +kernel), textOf?_cons_self]
  have hUri : textOf? "p" (blockElements e f) = some (e.uri.toList.flatMap escapeChar ++ ':' :: detailsText e f) := by
    rw [blockElements, textOf?_timingElements (by decide +kernel), textOf?_cons_of_ne (by decide +kernel),
      textOf?_cons_of_ne (by decide +kernel), textOf?_cons_self]
  have hMessage : textOf? "pre" (blockElements e f) = (shownMessage e.message).map (·.toList.flatMap escapeChar) := by
    rw [blockElements, textOf?_timingElements (by decide +kernel), textOf?_cons_of_ne (by decide +kernel),
      textOf?_cons_of_ne (by decide +kernel), textOf?_cons_of_ne (by decide +kernel), messageElements]
    cases shownMessage e.message with
    | none => exact textOf?_cons_of_ne (by decide +kernel) _ []
    | some s =>
      rw [textOf?_cons_of_ne (by decide +kernel), textOf?_cons_self]
      rfl
  have hRead : ∀ s : String, readText (s.toList.flatMap escapeChar) = s := by
    intro s
    rw [readText, unescape_escape, String.ofList_toList]
  -- A URI may hold colons, what follows it on the page does not: so the last colon ends the URI.
  rw [Shown.ofBlock, hName, hUri, hMessage, Option.getD_some, Option.getD_some,
    beforeLast_append (isFigure_detailsText e h).notMem, hRead, hRead, Option.map_map, String.ofList_toList]
  have hSame : readText ∘ (fun s : String => s.toList.flatMap escapeChar) = id := funext hRead
  rw [hSame, Option.map_id]
  rfl

theorem shown_entryParts (e : Entry) {f : Figures} (h : f.IsSound) (rest : List Part) :
    shown (elementsOf (entryParts e f ++ rest)) = Entry.shown e :: shown (elementsOf rest) := by
  have hParts : elementsOf (entryParts e f ++ rest) =
      ⟨openingTag e.outcome, leadOf (innerParts e f ++ rest)⟩ :: elementsOf (innerParts e f ++ rest) := rfl
  rw [hParts, shown, blockWord?_opening]
  dsimp only
  rw [shown_elementsOf_append (blockWord?_innerParts e f), elementsOf_innerParts, takeWhile_blockElements,
    ofBlock_blockElements e h]

/-! ## The whole page -/

theorem forall₂_of_mapM_eq_ok {α β : Type} {f : α → Except Fault β} {items : List α} {results : List β}
    (h : items.mapM f = .ok results) : List.Forall₂ (fun a b => f a = .ok b) items results := by
  induction items generalizing results with
  | nil =>
    cases h
    exact List.Forall₂.nil
  | cons a items ih =>
    rw [List.mapM_cons] at h
    obtain ⟨b, hb, h⟩ := exists_of_bind_eq_ok h
    obtain ⟨others, hOthers, h⟩ := exists_of_bind_eq_ok h
    cases h
    exact List.Forall₂.cons hb (ih hOthers)

theorem shown_entries {entries : List Entry} {fs : List Figures}
    (h : List.Forall₂ (fun e f => figures e = .ok f) entries fs) (rest : List Part) :
    shown (elementsOf ((List.zipWith entryParts entries fs).flatten ++ rest)) =
      entries.map Entry.shown ++ shown (elementsOf rest) := by
  induction h with
  | nil => rfl
  | cons hFigures _ ih =>
    rw [List.zipWith_cons_cons, List.flatten_cons, List.append_assoc, shown_entryParts _ (isSound_figures hFigures), ih,
      List.map_cons, List.cons_append]

theorem blockWord?_headParts (moment : Moment) : ∀ tag ∈ tagsOf (headParts moment), blockWord? tag = none := by
  have hTags : tagsOf (headParts moment) = tagsOf openingParts ++ (tagsOf bodyParts ++ tagsOf datedParts) := by
    rw [headParts, tagsOf_append, tagsOf_text, tagsOf_append, tagsOf_text]
  rw [hTags]
  decide +kernel

theorem blockWord?_itemParts (outcomes : List Outcome) (outcome : Outcome) :
    ∀ tag ∈ tagsOf (itemParts outcomes outcome), blockWord? tag = none := by
  have hTags : tagsOf (itemParts outcomes outcome) = tagsOf (itemParts [] outcome) := by
    simp only [itemParts, tagsOf_tag, tagsOf_text]
  rw [hTags]
  cases outcome <;> decide +kernel

theorem blockWord?_summaryParts (outcomes : List Outcome) :
    ∀ tag ∈ tagsOf (summaryParts outcomes), blockWord? tag = none := by
  simp only [summaryParts, tagsOf_append, tagsOf_tag, tagsOf_text, tagsOf_flatMap, List.forall_mem_cons,
    List.forall_mem_append]
  refine ⟨by decide +kernel, ?_, by decide +kernel⟩
  intro tag hTag
  obtain ⟨outcome, _, hMem⟩ := List.mem_flatMap.mp hTag
  exact blockWord?_itemParts outcomes outcome tag hMem

theorem shown_pageParts (moment : Moment) {entries : List Entry} {fs : List Figures}
    (h : entries.mapM figures = .ok fs) :
    shown (elementsOf (pageParts moment entries fs)) = entries.map Entry.shown := by
  have hTail : shown (elementsOf tailParts) = [] := by decide +kernel
  rw [pageParts, shown_elementsOf_append (blockWord?_headParts moment),
    shown_elementsOf_append (blockWord?_summaryParts _), elementsOf, shown_entries (forall₂_of_mapM_eq_ok h), hTail,
    List.append_nil]

/-- What is read from a page is read from its parts. -/
theorem map_page {β : Type} {g : String → β} {k : List Part → β}
    (h : ∀ parts, (∀ part ∈ parts, part.IsSound) → g (String.ofList (writtenAll parts)) = k parts) (moment : Moment)
    (entries : List Entry) :
    (page moment entries).map g = (entries.mapM figures).map fun fs => k (pageParts moment entries fs) := by
  rw [page_eq]
  cases hFigures : entries.mapM figures with
  | error fault => rfl
  | ok fs => exact congrArg Except.ok (h _ (isSound_pageParts moment entries hFigures))

/-- The elements of a page are those of its parts. -/
theorem exists_elements_page {moment : Moment} {entries : List Entry} {text : String}
    (h : page moment entries = .ok text) :
    ∃ fs, entries.mapM figures = .ok fs ∧ elements text.toList = elementsOf (pageParts moment entries fs) := by
  have hElements : ∀ parts, (∀ part ∈ parts, part.IsSound) →
      elements (String.ofList (writtenAll parts)).toList = elementsOf parts := by
    intro parts hSound
    rw [String.toList_ofList, elements_writtenAll hSound]
  have hPage := map_page (g := fun text => elements text.toList) hElements moment entries
  rw [h] at hPage
  cases hFigures : entries.mapM figures with
  | error fault =>
    rw [hFigures] at hPage
    cases hPage
  | ok fs =>
    rw [hFigures] at hPage
    exact ⟨fs, rfl, Except.ok.inj hPage⟩

theorem results_page {moment : Moment} {entries : List Entry} {text : String} (h : page moment entries = .ok text) :
    results text = entries.map Entry.shown := by
  obtain ⟨fs, hFigures, hElements⟩ := exists_elements_page h
  rw [results, hElements, shown_pageParts moment hFigures]

/-! ## Other texts -/

/-- The other entry differs in its texts only, and shows a message if this one does. -/
structure SameFrame (e other : Entry) : Prop where
  other_eq : other = { e with name := other.name, uri := other.uri, message := other.message }
  isSome_message : (shownMessage other.message).isSome = (shownMessage e.message).isSome

theorem SameFrame.figures_eq {e other : Entry} (h : SameFrame e other) : figures other = figures e := by
  rw [h.other_eq]
  rfl

theorem tagsOf_messageParts {message other : Option String}
    (h : (shownMessage other).isSome = (shownMessage message).isSome) :
    tagsOf (messageParts other) = tagsOf (messageParts message) := by
  unfold messageParts
  cases hOther : shownMessage other <;> cases hMessage : shownMessage message <;> simp_all [tagsOf_tag, tagsOf_text]

theorem SameFrame.tagsOf_entryParts {e other : Entry} (h : SameFrame e other) (f : Figures) :
    tagsOf (entryParts other f) = tagsOf (entryParts e f) := by
  have hOutcome : other.outcome = e.outcome := by rw [h.other_eq]
  have hElapsed : other.elapsedSeconds = e.elapsedSeconds := by rw [h.other_eq]
  simp only [entryParts, tagsOf_append, tagsOf_tag, tagsOf_text, hOutcome, hElapsed,
    tagsOf_messageParts h.isSome_message]

theorem mapM_figures_eq {entries others : List Entry} (h : List.Forall₂ SameFrame entries others) :
    others.mapM figures = entries.mapM figures := by
  induction h with
  | nil => rfl
  | cons hFrame _ ih => rw [List.mapM_cons, List.mapM_cons, hFrame.figures_eq, ih]

theorem tagsOf_flatten_entryParts {entries others : List Entry} (h : List.Forall₂ SameFrame entries others)
    (fs : List Figures) : tagsOf (List.zipWith entryParts others fs).flatten =
      tagsOf (List.zipWith entryParts entries fs).flatten := by
  induction h generalizing fs with
  | nil => rfl
  | cons hFrame _ ih =>
    cases fs with
    | nil => rfl
    | cons f fs =>
      rw [List.zipWith_cons_cons, List.zipWith_cons_cons, List.flatten_cons, List.flatten_cons, tagsOf_append,
        tagsOf_append, hFrame.tagsOf_entryParts, ih]

theorem tagsOf_pageParts (moment : Moment) {entries others : List Entry} (h : List.Forall₂ SameFrame entries others)
    (fs : List Figures) : tagsOf (pageParts moment others fs) = tagsOf (pageParts moment entries fs) := by
  have hOutcomes : others.map (·.outcome) = entries.map (·.outcome) := by
    induction h with
    | nil => rfl
    | cons hFrame _ ih => rw [List.map_cons, List.map_cons, ih, hFrame.other_eq]
  simp only [pageParts, tagsOf_append, tagsOf_text, hOutcomes, tagsOf_flatten_entryParts h]

/-- Texts of results change no bracket and no tag of a page, and they can be read from it. -/
theorem page_of_texts :
    (∀ (moment : Moment) (entries others : List Entry), List.Forall₂ SameFrame entries others →
      (page moment others).map brackets = (page moment entries).map brackets ∧
        (page moment others).map tags = (page moment entries).map tags) ∧
      ∀ (moment : Moment) (entries : List Entry) (text : String), page moment entries = .ok text →
        results text = entries.map Entry.shown := by
  constructor
  · intro moment entries others hFrames
    have hBrackets : ∀ parts, (∀ part ∈ parts, part.IsSound) →
        brackets (String.ofList (writtenAll parts)) = (tagsOf parts).flatMap fun _ => ['<', '>'] := by
      intro parts hSound
      rw [brackets, String.toList_ofList, filter_isBracket_writtenAll hSound]
    have hTags : ∀ parts, (∀ part ∈ parts, part.IsSound) → tags (String.ofList (writtenAll parts)) = tagsOf parts := by
      intro parts hSound
      rw [tags, String.toList_ofList, elements_writtenAll hSound, tagsOf]
    constructor
    · rw [map_page hBrackets, map_page hBrackets, mapM_figures_eq hFrames]
      simp only [tagsOf_pageParts moment hFrames]
    · rw [map_page hTags, map_page hTags, mapM_figures_eq hFrames]
      simp only [tagsOf_pageParts moment hFrames]
  · intro moment entries text hPage
    exact results_page hPage

/-- Markup in a name, a reference in a URI and a broken tag in a message. -/
def hostileEntry : Entry :=
  { id := "1", name := "</strong><b>x", uri := "file:///a&lt;b:1", outcome := .failed, message := some "<pre>'\"&#39;" }

def harmlessEntry : Entry :=
  { id := "1", name := "x", uri := "file:///a", outcome := .failed, message := some "y" }

theorem page_of_hostileEntry :
    (page (Moment.ofSeconds 0) [hostileEntry]).map brackets = (page (Moment.ofSeconds 0) [harmlessEntry]).map brackets ∧
      (page (Moment.ofSeconds 0) [hostileEntry]).map tags = (page (Moment.ofSeconds 0) [harmlessEntry]).map tags ∧
      ∃ text, page (Moment.ofSeconds 0) [hostileEntry] = .ok text ∧
        results text = [⟨"failed", "</strong><b>x", "file:///a&lt;b:1", some "<pre>'\"&#39;"⟩] := by
  have hFrames : List.Forall₂ SameFrame [harmlessEntry] [hostileEntry] :=
    List.Forall₂.cons ⟨rfl, by decide +kernel⟩ List.Forall₂.nil
  obtain ⟨hBrackets, hTags⟩ := page_of_texts.1 (Moment.ofSeconds 0) [harmlessEntry] [hostileEntry] hFrames
  refine ⟨hBrackets, hTags, ?_⟩
  have hFigures : figures hostileEntry = .ok ⟨"1", "", ""⟩ := by
    have hLine : Decimal.writeNumber (hostileEntry.line + 1) = .ok "1" := by decide +kernel
    rw [figures, hLine]
    rfl
  have hPage := page_eq (Moment.ofSeconds 0) [hostileEntry]
  rw [List.mapM_cons, List.mapM_nil, hFigures] at hPage
  refine ⟨_, hPage, ?_⟩
  exact page_of_texts.2 _ _ _ hPage

end ScenarioRunner.Report.Html
