import ScenarioRunner.Proofs.Report.Markup

/-!
# Pages as rows of tags and texts

A page is written from tags and texts that hold no brackets of their own: what comes from results stands in escaped
texts only. So its brackets and its tags are known before any text of a result is.
-/

namespace ScenarioRunner.Report.Html

open ScenarioRunner.Calendar
open ScenarioRunner.Text

set_option autoImplicit false

structure Figures where
  line : String
  steps : String
  examples : String

def figures (e : Entry) : Except Fault Figures := do
  return ⟨← Decimal.writeNumber (e.line + 1), ← stepCounts e, ← exampleCounts e⟩

def timingParts : Option Float → List Part
  | some x => [.text "\n            ".toList, .tag "span class=\"timing\"".toList,
      .text ((Decimal.fixed 3 x).toList ++ ['s']), .tag "/span".toList, .text "\n            ".toList]
  | none => []

/-- An empty message is not shown. -/
def shownMessage (message : Option String) : Option String :=
  message.filter (· ≠ "")

def messageParts (message : Option String) : List Part :=
  match shownMessage message with
  | none => []
  | some s => [.text "\n            ".toList, .tag "pre".toList, .text (s.toList.flatMap escapeChar),
      .tag "/pre".toList, .text "\n            ".toList]

def detailsText (e : Entry) (f : Figures) : List Char :=
  f.line.toList ++ (" &mdash; ".toList ++ (e.outcome.word.toList ++ ("\n            ".toList ++ (f.steps.toList ++
    ("\n            ".toList ++ (f.examples.toList ++ "\n            ".toList))))))

def openingTag (outcome : Outcome) : List Char :=
  "div class=\"scenario ".toList ++ (outcome.word.toList ++ ['"'])

theorem openingTag_eq (outcome : Outcome) :
    openingTag outcome = "div class=\"scenario ".toList ++ (outcome.word.toList ++ ['"']) := rfl

def entryParts (e : Entry) (f : Figures) : List Part :=
  .text "\n        ".toList :: .tag (openingTag e.outcome) :: .text "\n            ".toList ::
    (timingParts e.elapsedSeconds ++ .text "\n            ".toList :: .tag "strong".toList ::
    .text (e.name.toList.flatMap escapeChar) :: .tag "/strong".toList :: .text "\n            ".toList ::
    .tag "p".toList :: .text (e.uri.toList.flatMap escapeChar ++ ':' :: detailsText e f) :: .tag "/p".toList ::
    .text "\n            ".toList :: (messageParts e.message ++
    [.text "\n        ".toList, .tag "/div".toList, .text "\n        ".toList]))

def openingParts : List Part :=
  [.text "\n".toList, .tag "!DOCTYPE html".toList, .text "\n".toList, .tag "html".toList, .text "\n".toList,
    .tag "head".toList, .text "\n    ".toList, .tag "title".toList, .text "Cucumber Run Report".toList,
    .tag "/title".toList, .text "\n    ".toList, .tag "style".toList, .text "\n".toList]

def bodyParts : List Part :=
  [.text "    ".toList, .tag "/style".toList, .text "\n".toList, .tag "/head".toList, .text "\n".toList,
    .tag "body".toList, .text "\n    ".toList, .tag "div class=\"container\"".toList, .text "\n        ".toList,
    .tag "div class=\"header\"".toList, .text "\n            ".toList, .tag "h1".toList,
    .text "Cucumber Run Report".toList, .tag "/h1".toList, .text "\n            ".toList, .tag "p".toList,
    .text "Generated: ".toList]

def datedParts : List Part :=
  [.tag "/p".toList, .text "\n        ".toList, .tag "/div".toList, .text "\n\n".toList]

def headParts (moment : Moment) : List Part :=
  openingParts ++ .text styleSheet.toList :: (bodyParts ++ .text moment.readable.toList :: datedParts)

def itemTag (outcome : Outcome) : List Char :=
  "div class=\"summary-item ".toList ++ (outcome.word.toList ++ ['"'])

def itemParts (outcomes : List Outcome) (outcome : Outcome) : List Part :=
  [.text "\n            ".toList, .tag (itemTag outcome),
    .text "\n                ".toList, .tag "div class=\"number\"".toList,
    .text (toString (outcomes.count outcome)).toList, .tag "/div".toList, .text "\n                ".toList,
    .tag "div class=\"label\"".toList, .text (outcomeTitle outcome).toList, .tag "/div".toList,
    .text "\n            ".toList, .tag "/div".toList, .text "\n            ".toList]

def summaryParts (outcomes : List Outcome) : List Part :=
  .text "        ".toList :: .tag "div class=\"summary\"".toList :: .text "\n            ".toList ::
    (Outcome.all.flatMap (itemParts outcomes) ++
    [.text "\n        ".toList, .tag "/div".toList, .text "\n\n".toList])

def tailParts : List Part :=
  [.text "\n    ".toList, .tag "/div".toList, .text "\n".toList, .tag "/body".toList, .text "\n".toList,
    .tag "/html".toList]

def pageParts (moment : Moment) (entries : List Entry) (fs : List Figures) : List Part :=
  headParts moment ++ (summaryParts (entries.map (·.outcome)) ++ .text "        ".toList ::
    ((List.zipWith entryParts entries fs).flatten ++ tailParts))

/-! ## The text of a page -/

theorem writtenAll_nil : writtenAll [] = [] := rfl

theorem writtenAll_text (s : List Char) (parts : List Part) : writtenAll (.text s :: parts) = s ++ writtenAll parts :=
  rfl

theorem writtenAll_tag (inside : List Char) (parts : List Part) :
    writtenAll (.tag inside :: parts) = '<' :: (inside ++ '>' :: writtenAll parts) := by
  simp [writtenAll, Part.written]

theorem writtenAll_append (ps qs : List Part) : writtenAll (ps ++ qs) = writtenAll ps ++ writtenAll qs :=
  List.flatMap_append

theorem writtenAll_flatMap {α : Type} (f : α → List Part) (xs : List α) :
    writtenAll (xs.flatMap f) = xs.flatMap fun x => writtenAll (f x) :=
  List.flatMap_assoc

theorem writtenAll_flatten (rows : List (List Part)) : writtenAll rows.flatten = (rows.map writtenAll).flatten := by
  induction rows with
  | nil => rfl
  | cons parts rows ih => rw [List.flatten_cons, writtenAll_append, ih, List.map_cons, List.flatten_cons]

theorem toList_join (texts : List String) : (String.join texts).toList = texts.flatMap String.toList := by
  simp [List.flatMap]

theorem toList_timing (seconds : Option Float) : (timing seconds).toList = writtenAll (timingParts seconds) := by
  cases seconds with
  | none => rfl
  | some x =>
    have hOpen : "\n            <span class=\"timing\">".toList =
        "\n            ".toList ++ '<' :: ("span class=\"timing\"".toList ++ ['>']) := by decide +kernel
    have hClose : "s</span>\n            ".toList =
        's' :: '<' :: ("/span".toList ++ '>' :: "\n            ".toList) := by decide +kernel
    unfold timing
    simp only [timingParts, String.toList_append, writtenAll_text, writtenAll_tag, writtenAll_nil, hOpen, hClose,
      List.append_assoc, List.cons_append, List.nil_append, List.append_nil]

theorem toList_messageBlock (message : Option String) :
    (messageBlock message).toList = writtenAll (messageParts message) := by
  unfold messageBlock messageParts
  split
  · rfl
  · rfl
  · next s hNonempty =>
    have hShown : shownMessage (some s) = some s := by
      simp only [shownMessage, Option.filter_some]
      rw [if_pos (by simpa using hNonempty)]
    have hOpen : "\n            <pre>".toList = "\n            ".toList ++ '<' :: ("pre".toList ++ ['>']) := by
      decide +kernel
    have hClose : "</pre>\n            ".toList = '<' :: ("/pre".toList ++ '>' :: "\n            ".toList) := by
      decide +kernel
    simp only [hShown, escape, String.toList_append, String.toList_ofList, writtenAll_text, writtenAll_tag,
      writtenAll_nil, hOpen, hClose, List.append_assoc, List.cons_append, List.nil_append, List.append_nil]

theorem entryBlock_eq (e : Entry) :
    entryBlock e = (figures e).map fun f => String.ofList (writtenAll (entryParts e f)) := by
  have hText : ∀ f : Figures, "\n        <div class=\"scenario " ++ e.outcome.word ++ "\">\n            " ++
      timing e.elapsedSeconds ++ "\n            <strong>" ++ escape e.name ++ "</strong>\n            <p>" ++
      escape e.uri ++ ":" ++ f.line ++ " &mdash; " ++ e.outcome.word ++ "\n            " ++ f.steps ++
      "\n            " ++ f.examples ++ "\n            </p>\n            " ++ messageBlock e.message ++
      "\n        </div>\n        " = String.ofList (writtenAll (entryParts e f)) := by
    intro f
    have hOpen : "\n        <div class=\"scenario ".toList =
        "\n        ".toList ++ '<' :: "div class=\"scenario ".toList := by decide +kernel
    have hOpened : "\">\n            ".toList = '"' :: '>' :: "\n            ".toList := by decide +kernel
    have hName : "\n            <strong>".toList =
        "\n            ".toList ++ '<' :: ("strong".toList ++ ['>']) := by decide +kernel
    have hUri : "</strong>\n            <p>".toList =
        '<' :: ("/strong".toList ++ '>' :: ("\n            ".toList ++ '<' :: ("p".toList ++ ['>']))) := by
      decide +kernel
    have hColon : ":".toList = [':'] := by decide +kernel
    have hMessage : "\n            </p>\n            ".toList =
        "\n            ".toList ++ '<' :: ("/p".toList ++ '>' :: "\n            ".toList) := by decide +kernel
    have hClose : "\n        </div>\n        ".toList =
        "\n        ".toList ++ '<' :: ("/div".toList ++ '>' :: "\n        ".toList) := by decide +kernel
    apply String.toList_injective
    simp only [entryParts, openingTag_eq, detailsText, escape, String.toList_append, String.toList_ofList,
      writtenAll_text, writtenAll_tag, writtenAll_append, writtenAll_nil, toList_timing, toList_messageBlock, hOpen,
      hOpened, hName, hUri, hColon, hMessage, hClose, List.append_assoc, List.cons_append, List.nil_append, List.append_nil]
  simp only [entryBlock, figures]
  cases Decimal.writeNumber (e.line + 1) with
  | error fault => rfl
  | ok line =>
    cases stepCounts e with
    | error fault => rfl
    | ok steps =>
      cases exampleCounts e with
      | error fault => rfl
      | ok counted => exact congrArg Except.ok (hText ⟨line, steps, counted⟩)

theorem toList_pageHead (moment : Moment) : (pageHead moment).toList = writtenAll (headParts moment) := by
  have hOpening : "\n<!DOCTYPE html>\n<html>\n<head>\n    <title>Cucumber Run Report</title>\n    <style>\n".toList =
      writtenAll openingParts := by decide +kernel
  have hBody :
      "    </style>\n</head>\n<body>\n    <div class=\"container\">\n        <div class=\"header\">\n".toList ++
      "            <h1>Cucumber Run Report</h1>\n            <p>Generated: ".toList = writtenAll bodyParts := by
    decide +kernel
  have hDated : "</p>\n        </div>\n\n".toList = writtenAll datedParts := by decide +kernel
  unfold pageHead
  rw [headParts, writtenAll_append, writtenAll_text, writtenAll_append, writtenAll_text, ← hOpening, ← hBody, ← hDated]
  -- The style sheet is closed, so that it would be computed.
  generalize styleSheet = style
  simp only [String.toList_append, List.append_assoc]

theorem toList_summaryItem (outcomes : List Outcome) (outcome : Outcome) :
    (summaryItem outcomes outcome).toList = writtenAll (itemParts outcomes outcome) := by
  have hOpen : "\n            <div class=\"summary-item ".toList =
      "\n            ".toList ++ '<' :: "div class=\"summary-item ".toList := by decide +kernel
  have hNumber : "\">\n                <div class=\"number\">".toList =
      '"' :: '>' :: ("\n                ".toList ++ '<' :: ("div class=\"number\"".toList ++ ['>'])) := by
    decide +kernel
  have hLabel : "</div>\n                <div class=\"label\">".toList = '<' :: ("/div".toList ++
      '>' :: ("\n                ".toList ++ '<' :: ("div class=\"label\"".toList ++ ['>']))) := by decide +kernel
  have hClose : "</div>\n            </div>\n            ".toList = '<' :: ("/div".toList ++
      '>' :: ("\n            ".toList ++ '<' :: ("/div".toList ++ '>' :: "\n            ".toList))) := by decide +kernel
  have hTag : itemTag outcome = "div class=\"summary-item ".toList ++ (outcome.word.toList ++ ['"']) := rfl
  unfold summaryItem
  simp only [itemParts, hTag, String.toList_append, writtenAll_text, writtenAll_tag, writtenAll_nil, hOpen,
    hNumber, hLabel, hClose, List.append_assoc, List.cons_append, List.nil_append, List.append_nil]

theorem toList_summaryBlock (outcomes : List Outcome) :
    (summaryBlock outcomes).toList = writtenAll (summaryParts outcomes) := by
  have hOpen : "        <div class=\"summary\">\n            ".toList =
      "        ".toList ++ '<' :: ("div class=\"summary\"".toList ++ '>' :: "\n            ".toList) := by
    decide +kernel
  have hClose : "\n        </div>\n\n".toList =
      "\n        ".toList ++ '<' :: ("/div".toList ++ '>' :: "\n\n".toList) := by decide +kernel
  unfold summaryBlock
  simp only [summaryParts, String.toList_append, toList_join, List.flatMap_map, toList_summaryItem,
    writtenAll_text, writtenAll_tag, writtenAll_append, writtenAll_flatMap, writtenAll_nil, hOpen, hClose,
    List.append_assoc, List.cons_append, List.append_nil]

/-- There is a page if all its numbers can be written. -/
theorem page_eq (moment : Moment) (entries : List Entry) :
    page moment entries =
      (entries.mapM figures).map fun fs => String.ofList (writtenAll (pageParts moment entries fs)) := by
  have hTail : "\n    </div>\n</body>\n</html>".toList = writtenAll tailParts := by decide +kernel
  unfold page
  rw [funext entryBlock_eq, mapM_map_of_item]
  cases entries.mapM figures with
  | error fault => rfl
  | ok fs =>
    apply congrArg Except.ok
    apply String.toList_injective
    have hBlocks :
        (List.zipWith (fun e f => String.ofList (writtenAll (entryParts e f))) entries fs).flatMap String.toList =
        writtenAll (List.zipWith entryParts entries fs).flatten := by
      rw [writtenAll_flatten, List.flatMap_def, List.map_zipWith, List.map_zipWith]
      simp only [String.toList_ofList]
    rw [String.toList_ofList, pageParts, writtenAll_append, writtenAll_append, writtenAll_text, writtenAll_append,
      ← hTail, ← toList_pageHead, ← toList_summaryBlock, ← hBlocks]
    generalize pageHead moment = head
    simp only [String.toList_append, toList_join, List.append_assoc]

/-! ## No other brackets -/

/-- Text without brackets and without the colon that ends a URI. -/
def IsFigure (s : List Char) : Prop :=
  ∀ c ∈ s, isBracket c = false ∧ c ≠ ':'

instance (s : List Char) : Decidable (IsFigure s) :=
  List.decidableBAll (fun c => isBracket c = false ∧ c ≠ ':') s

theorem IsFigure.isPlain {s : List Char} (h : IsFigure s) : IsPlain s :=
  fun c hc => (h c hc).1

theorem IsFigure.notMem {s : List Char} (h : IsFigure s) : ':' ∉ s :=
  fun hMem => (h ':' hMem).2 rfl

theorem IsFigure.append {s t : List Char} (hs : IsFigure s) (ht : IsFigure t) : IsFigure (s ++ t) := by
  intro c hc
  rcases List.mem_append.mp hc with hc | hc
  · exact hs c hc
  · exact ht c hc

theorem isFigure_of_isDigit {s : List Char} (h : ∀ c ∈ s, c.isDigit = true) : IsFigure s := by
  intro c hc
  have hDigit := toNat_of_ascii (h c hc)
  constructor
  · rw [isBracket, Bool.or_eq_false_iff, beq_eq_false_iff_ne, beq_eq_false_iff_ne]
    constructor
    · rintro rfl
      simp at hDigit
    · rintro rfl
      simp at hDigit
  · rintro rfl
    simp at hDigit

theorem isFigure_repr (n : Nat) : IsFigure n.repr.toList := by
  rw [Nat.toList_repr]
  exact isFigure_of_isDigit fun c hc => Nat.isDigit_of_mem_toDigits (by decide) (by decide) hc

theorem isFigure_writeNumber {n : Int} {s : String} (h : Decimal.writeNumber n = .ok s) : IsFigure s.toList := by
  obtain ⟨-, rfl⟩ := (Decimal.writeNumber_eq_ok_iff n s).mp h
  rw [Int.toString_eq_repr, Int.repr_eq_if]
  split
  · exact isFigure_repr _
  · rw [String.toList_append]
    exact IsFigure.append (by decide) (isFigure_repr _)

theorem isFigure_numberText {n : Option Int} {s : String} (h : numberText n = .ok s) : IsFigure s.toList := by
  cases n with
  | some n => exact isFigure_writeNumber h
  | none =>
    cases h
    decide

theorem isFigure_counts {passed total : Option Int} {what s : String} (hWhat : IsFigure what.toList)
    (h : counts passed total what = .ok s) : IsFigure s.toList := by
  obtain ⟨first, hFirst, hRest⟩ := exists_of_bind_eq_ok h
  obtain ⟨second, hSecond, hText⟩ := exists_of_bind_eq_ok hRest
  cases hText
  have hEnd := hWhat.append (t := " passed)".toList) (by decide)
  have hSecondOn := (isFigure_numberText hSecond).append (IsFigure.append (s := " ".toList) (by decide) hEnd)
  have hFirstOn := (isFigure_numberText hFirst).append (IsFigure.append (s := "/".toList) (by decide) hSecondOn)
  simp only [String.toList_append, List.append_assoc]
  exact IsFigure.append (by decide) hFirstOn

structure Figures.IsSound (f : Figures) : Prop where
  line : IsFigure f.line.toList
  steps : IsFigure f.steps.toList
  examples : IsFigure f.examples.toList

theorem isSound_figures {e : Entry} {f : Figures} (h : figures e = .ok f) : f.IsSound := by
  obtain ⟨line, hLine, hRest⟩ := exists_of_bind_eq_ok h
  obtain ⟨steps, hSteps, hRest⟩ := exists_of_bind_eq_ok hRest
  obtain ⟨counted, hCounted, hFigures⟩ := exists_of_bind_eq_ok hRest
  cases hFigures
  constructor
  · exact isFigure_writeNumber hLine
  · rw [stepCounts] at hSteps
    split at hSteps
    · exact isFigure_counts (by decide) hSteps
    · cases hSteps
      exact (by decide : IsFigure "".toList)
  · rw [exampleCounts] at hCounted
    split at hCounted
    · exact isFigure_counts (by decide) hCounted
    · cases hCounted
      exact (by decide : IsFigure "".toList)

theorem isPlain_padLeft (width n : Nat) : IsPlain (Decimal.padLeft width '0' (Nat.toDigits 10 n)) :=
  (isFigure_of_isDigit fun _ hc => isDigit_of_mem_padLeft hc).isPlain

theorem isPlain_fixed (places : Nat) (x : Float) : IsPlain (Decimal.fixed places x).toList := by
  have hMagnitude : ∀ magnitude, IsPlain (Decimal.fixedMagnitude places magnitude) := by
    intro magnitude
    cases magnitude with
    | infinite => exact (by decide : IsPlain "inf".toList)
    | notANumber => exact (by decide : IsPlain "nan".toList)
    | finite mantissa exponent =>
      apply IsPlain.append
      · exact fun c hc => isPlain_padLeft _ _ c (List.mem_of_mem_take hc)
      · intro c hc
        rcases List.mem_cons.mp hc with rfl | hc
        · decide
        · exact isPlain_padLeft _ _ c (List.mem_of_mem_drop hc)
  rw [Decimal.fixed, String.toList_ofList]
  apply IsPlain.append
  · split
    · decide
    · decide
  · exact hMagnitude _

theorem isPlain_padded (width n : Nat) : IsPlain (padded width n).toList := by
  rw [padded, String.toList_ofList]
  exact isPlain_padLeft width n

theorem isPlain_readable (moment : Moment) : IsPlain moment.readable.toList := by
  have hRow : ∀ separator a b c : String, IsPlain separator.toList → IsPlain a.toList → IsPlain b.toList →
      IsPlain c.toList → IsPlain (separator.intercalate [a, b, c]).toList := by
    intro separator a b c hSeparator ha hb hc
    have hText : (separator.intercalate [a, b, c]).toList =
        a.toList ++ (separator.toList ++ (b.toList ++ (separator.toList ++ c.toList))) := by
      simp
    rw [hText]
    exact ha.append (hSeparator.append (hb.append (hSeparator.append hc)))
  rw [Moment.readable, Date.text, Moment.clock, String.toList_append, String.toList_append]
  apply IsPlain.append
  · apply IsPlain.append
    · exact hRow _ _ _ _ (by decide) (isPlain_padded _ _) (isPlain_padded _ _) (isPlain_padded _ _)
    · decide
  · exact hRow _ _ _ _ (by decide) (isPlain_padded _ _) (isPlain_padded _ _) (isPlain_padded _ _)

theorem isSound_timingParts (seconds : Option Float) : ∀ part ∈ timingParts seconds, part.IsSound := by
  cases seconds with
  | none => simp [timingParts]
  | some x =>
    have hSeconds : IsPlain ((Decimal.fixed 3 x).toList ++ ['s']) := (isPlain_fixed 3 x).append (by decide)
    simp only [timingParts, List.forall_mem_cons]
    exact ⟨by decide +kernel, by decide +kernel, hSeconds, by decide +kernel, by decide +kernel⟩

theorem isSound_messageParts (message : Option String) : ∀ part ∈ messageParts message, part.IsSound := by
  unfold messageParts
  split
  · exact fun part h => absurd h List.not_mem_nil
  · next s _ =>
    simp only [List.forall_mem_cons]
    exact ⟨by decide +kernel, by decide +kernel, isPlain_escape s.toList, by decide +kernel, by decide +kernel⟩

theorem isFigure_word (outcome : Outcome) : IsFigure outcome.word.toList := by
  cases outcome <;> decide

theorem isFigure_detailsText (e : Entry) {f : Figures} (h : f.IsSound) : IsFigure (detailsText e f) := by
  have hBreak : IsFigure "\n            ".toList := by decide +kernel
  have hSteps := h.steps.append (hBreak.append (h.examples.append hBreak))
  have hOutcome := (isFigure_word e.outcome).append (hBreak.append hSteps)
  exact h.line.append (IsFigure.append (by decide) hOutcome)

theorem isSound_entryParts (e : Entry) {f : Figures} (h : f.IsSound) : ∀ part ∈ entryParts e f, part.IsSound := by
  have hTag : IsPlain (openingTag e.outcome) :=
    IsPlain.append (by decide +kernel) ((isFigure_word e.outcome).isPlain.append (by decide))
  have hUri : IsPlain (e.uri.toList.flatMap escapeChar ++ ':' :: detailsText e f) :=
    (isPlain_escape e.uri.toList).append (IsPlain.append (s := [':']) (by decide) (isFigure_detailsText e h).isPlain)
  simp only [entryParts, List.forall_mem_cons, List.forall_mem_append]
  exact ⟨by decide +kernel, hTag, by decide +kernel, isSound_timingParts _, by decide +kernel, by decide +kernel,
    isPlain_escape _, by decide +kernel, by decide +kernel, by decide +kernel, hUri, by decide +kernel,
    by decide +kernel, isSound_messageParts _, by decide +kernel, by decide +kernel, by decide +kernel⟩

/-- A literal is known by its characters, so that its bytes need not be decoded. -/
theorem isPlain_toList_ofList {s : List Char} (h : IsPlain s) : IsPlain (String.ofList s).toList := by
  rwa [String.toList_ofList]

theorem isPlain_styleSheet : IsPlain styleSheet.toList := by
  have hRules : ∀ rule ∈ styleRules, IsPlain rule.1.toList ∧ IsPlain rule.2.toList := by
    rw [styleRules]
    repeat refine List.forall_mem_cons.mpr (And.symm ⟨?_, ?_, ?_⟩)
    · exact List.forall_mem_nil _
    all_goals exact isPlain_toList_ofList (by decide +kernel)
  intro c hc
  rw [styleSheet, toList_join, List.flatMap_map] at hc
  obtain ⟨rule, hRule, hMem⟩ := List.mem_flatMap.mp hc
  obtain ⟨hName, hBody⟩ := hRules rule hRule
  simp only [String.toList_append] at hMem
  have hLine := ((((IsPlain.append (s := "        ".toList) (by decide) hName).append (t := " \x7b ".toList)
    (by decide)).append hBody).append (t := " \x7d\n".toList) (by decide))
  exact hLine c hMem

theorem isSound_headParts (moment : Moment) : ∀ part ∈ headParts moment, part.IsSound := by
  have hStyle := isPlain_styleSheet
  rw [headParts]
  generalize styleSheet = style at hStyle ⊢
  simp only [List.forall_mem_append, List.forall_mem_cons]
  exact ⟨by decide +kernel, hStyle, by decide +kernel, isPlain_readable moment, by decide +kernel⟩

theorem isSound_itemParts (outcomes : List Outcome) (outcome : Outcome) :
    ∀ part ∈ itemParts outcomes outcome, part.IsSound := by
  have hTag : IsPlain (itemTag outcome) :=
    IsPlain.append (by decide +kernel) ((isFigure_word outcome).isPlain.append (by decide))
  have hTitle : IsPlain (outcomeTitle outcome).toList := by cases outcome <;> decide
  simp only [itemParts, List.forall_mem_cons]
  exact ⟨by decide +kernel, hTag, by decide +kernel, by decide +kernel, (isFigure_repr _).isPlain, by decide +kernel,
    by decide +kernel, by decide +kernel, hTitle, by decide +kernel, by decide +kernel, by decide +kernel,
    by decide +kernel⟩

theorem isSound_pageParts (moment : Moment) (entries : List Entry) {fs : List Figures}
    (h : entries.mapM figures = .ok fs) : ∀ part ∈ pageParts moment entries fs, part.IsSound := by
  have hFigures : ∀ f ∈ fs, f.IsSound := by
    intro f hf
    obtain ⟨e, _, hOk⟩ := exists_of_mem_of_mapM_eq_ok h f hf
    exact isSound_figures hOk
  have hEntries : ∀ parts ∈ List.zipWith entryParts entries fs, ∀ part ∈ parts, part.IsSound := by
    rw [← List.map_uncurry_zip_eq_zipWith]
    intro parts hParts
    obtain ⟨⟨e, f⟩, hMem, rfl⟩ := List.mem_map.mp hParts
    exact isSound_entryParts e (hFigures f (List.of_mem_zip hMem).2)
  have hItems : ∀ part ∈ Outcome.all.flatMap (itemParts (entries.map (·.outcome))), part.IsSound := by
    intro part hPart
    obtain ⟨outcome, _, hMem⟩ := List.mem_flatMap.mp hPart
    exact isSound_itemParts _ outcome part hMem
  have hBlocks : ∀ part ∈ (List.zipWith entryParts entries fs).flatten, part.IsSound := by
    intro part hPart
    obtain ⟨parts, hParts, hMem⟩ := List.mem_flatten.mp hPart
    exact hEntries parts hParts part hMem
  simp only [pageParts, summaryParts, List.forall_mem_append, List.forall_mem_cons]
  exact ⟨isSound_headParts moment, ⟨by decide +kernel, by decide +kernel, by decide +kernel, hItems, by decide +kernel⟩,
    by decide +kernel, hBlocks, by decide +kernel⟩

end ScenarioRunner.Report.Html
