import Mathlib.Data.List.DropRight
import Mathlib.Tactic.Common
import ScenarioRunner.Proofs.Feature.Sections
import ScenarioRunner.Proofs.Text.Lines
import ScenarioRunner.Proofs.Text.Plain

/-!
# The grammar of the lines

What a line says depends on its own text, and for a row also on the last header before it. Main statement: the events of
a text are exactly the lines that the grammar reads, each with the place of its line; and the grammar is that of patterns
with blanks in front and behind, in whatever way they are matched.
-/

namespace ScenarioRunner.Feature

open ScenarioRunner.Text

set_option autoImplicit false

/-! ## Single lines -/

/-- What a line says, by its text without the blanks in front. No line says two things, so that the order of the cases
does not matter. -/
inductive LineReads (inExamples : Prop) (line : List Char) : EventKind → Prop
  | feature {rest : List Char} (hRest : rest ≠ []) (h : trimLeft line = "Feature:".toList ++ rest) :
      LineReads inExamples line (.feature (trimmedText rest))
  | scenario {rest : List Char} (hRest : rest ≠ []) (h : trimLeft line = "Scenario:".toList ++ rest) :
      LineReads inExamples line (.scenario (trimmedText rest) false)
  | outline {rest : List Char} (hRest : rest ≠ []) (h : trimLeft line = "Scenario Outline:".toList ++ rest) :
      LineReads inExamples line (.scenario (trimmedText rest) true)
  | examples {rest : List Char} (h : trimLeft line = "Examples:".toList ++ rest) : LineReads inExamples line .examples
  | tableRow (hOpen : inExamples) {cells : List (List Char)} (hCells : cells ≠ []) (hPipes : ∀ cell ∈ cells, '|' ∉ cell)
      (h : trim line = '|' :: (['|'].intercalate cells ++ ['|'])) :
      LineReads inExamples line (.tableRow (cells.map trimmedText))

theorem nameAfter?_eq_some_iff (keyword : String) (s : List Char) (name : String) :
    nameAfter? keyword s = some name ↔
      ∃ rest, rest ≠ [] ∧ s = keyword.toList ++ rest ∧ trimmedText rest = name := by
  constructor
  · intro h
    rw [nameAfter?] at h
    split at h
    · cases h
    · cases h
    · next rest hRest hAfter =>
      exact ⟨rest, hRest, (after?_eq_some_iff _ _ _).mp hAfter, Option.some.inj h⟩
  · rintro ⟨rest, hRest, rfl, rfl⟩
    rw [nameAfter?, (after?_eq_some_iff keyword.toList _ rest).mpr rfl]
    cases rest with
    | nil => exact absurd rfl hRest
    | cons c rest => rfl

theorem insidePipes?_eq_some_iff (s inside : List Char) :
    insidePipes? s = some inside ↔ s = '|' :: (inside ++ ['|']) := by
  constructor
  · intro h
    rw [insidePipes?.eq_def] at h
    split at h
    · next rest =>
      split_ifs at h with hLast
      cases h
      obtain ⟨inside, rfl⟩ := List.getLast?_eq_some_iff.mp (beq_iff_eq.mp hLast)
      rw [List.dropLast_concat]
    · cases h
  · rintro rfl
    simp [insidePipes?]

theorem cellsOf?_eq_some_iff (s : List Char) (texts : List String) :
    cellsOf? s = some texts ↔ ∃ cells, cells ≠ [] ∧ (∀ cell ∈ cells, '|' ∉ cell) ∧
      trimRight s = '|' :: (['|'].intercalate cells ++ ['|']) ∧ cells.map trimmedText = texts := by
  rw [cellsOf?, Option.map_eq_some_iff]
  constructor
  · rintro ⟨inside, hInside, rfl⟩
    refine ⟨pieces '|' inside, pieces_ne_nil '|' inside, fun cell hCell => (of_mem_pieces hCell).1, ?_, rfl⟩
    rw [intercalate_pieces, (insidePipes?_eq_some_iff _ _).mp hInside]
  · rintro ⟨cells, hCells, hPipes, hText, rfl⟩
    exact ⟨_, (insidePipes?_eq_some_iff _ _).mpr hText, by rw [pieces_intercalate hCells hPipes]⟩

theorem ofLine?_eq_some_iff (inExamples : Bool) (line : List Char) (kind : EventKind) :
    EventKind.ofLine? inExamples line = some kind ↔ LineReads (inExamples = true) line kind := by
  constructor
  · intro h
    simp only [EventKind.ofLine?] at h
    split at h
    · next name hName =>
      obtain ⟨rest, hRest, hText, rfl⟩ := (nameAfter?_eq_some_iff _ _ _).mp hName
      cases h
      exact .feature hRest hText
    split at h
    · next name hName =>
      obtain ⟨rest, hRest, hText, rfl⟩ := (nameAfter?_eq_some_iff _ _ _).mp hName
      cases h
      exact .scenario hRest hText
    split at h
    · next name hName =>
      obtain ⟨rest, hRest, hText, rfl⟩ := (nameAfter?_eq_some_iff _ _ _).mp hName
      cases h
      exact .outline hRest hText
    split_ifs at h with hExamples hOpen
    · cases h
      obtain ⟨rest, hRest⟩ := Option.isSome_iff_exists.mp hExamples
      exact .examples ((after?_eq_some_iff _ _ _).mp hRest)
    · obtain ⟨texts, hTexts, rfl⟩ := Option.map_eq_some_iff.mp h
      obtain ⟨cells, hCells, hPipes, hText, rfl⟩ := (cellsOf?_eq_some_iff _ _).mp hTexts
      exact .tableRow hOpen hCells hPipes hText
  · intro h
    cases h with
    | feature hRest h =>
      have hName := (nameAfter?_eq_some_iff "Feature:" (trimLeft line) _).mpr ⟨_, hRest, h, rfl⟩
      simp only [EventKind.ofLine?, hName]
    | scenario hRest h =>
      have hName := (nameAfter?_eq_some_iff "Scenario:" (trimLeft line) _).mpr ⟨_, hRest, h, rfl⟩
      have hFeature : nameAfter? "Feature:" (trimLeft line) = none := by rw [h]; rfl
      simp only [EventKind.ofLine?, hFeature, hName]
    | outline hRest h =>
      have hName := (nameAfter?_eq_some_iff "Scenario Outline:" (trimLeft line) _).mpr ⟨_, hRest, h, rfl⟩
      have hFeature : nameAfter? "Feature:" (trimLeft line) = none := by rw [h]; rfl
      have hScenario : nameAfter? "Scenario:" (trimLeft line) = none := by rw [h]; rfl
      simp only [EventKind.ofLine?, hFeature, hScenario, hName]
    | examples h =>
      rw [EventKind.ofLine?, h]
      rfl
    | tableRow hOpen hCells hPipes h =>
      have hRow := (cellsOf?_eq_some_iff (trimLeft line) _).mpr ⟨_, hCells, hPipes, h, rfl⟩
      obtain ⟨rest, hRest⟩ : trim line <+: trimLeft line := List.rdropWhile_prefix isBlank (trimLeft line)
      rw [h, List.cons_append] at hRest
      rw [EventKind.ofLine?, hRow, ← hRest, if_pos hOpen]
      rfl

/-- No line says two things. -/
theorem LineReads.unique {inExamples : Prop} {line : List Char} {kind other : EventKind}
    (h : LineReads inExamples line kind) (hOther : LineReads inExamples line other) : kind = other := by
  classical
  have hKind : ∀ {kind}, LineReads inExamples line kind →
      EventKind.ofLine? (decide inExamples) line = some kind := by
    intro kind h
    rw [ofLine?_eq_some_iff, decide_eq_true_eq]
    exact h
  exact Option.some.inj ((hKind h).symm.trans (hKind hOther))

/-! ## Patterns -/

inductive Part where
  | blanks
  | text (word : String)
  /-- At least so many characters, which are handed on. -/
  | group (least : Nat)

/-- One way to match the parts with the whole of a text, and what its groups take. -/
inductive Matches : List Part → List Char → List (List Char) → Prop
  | nil : Matches [] [] []
  | blanks {parts : List Part} {run s : List Char} {groups : List (List Char)} (hRun : ∀ c ∈ run, isBlank c = true)
      (h : Matches parts s groups) : Matches (.blanks :: parts) (run ++ s) groups
  | text {parts : List Part} (word : String) {s : List Char} {groups : List (List Char)} (h : Matches parts s groups) :
      Matches (.text word :: parts) (word.toList ++ s) groups
  | group {parts : List Part} {least : Nat} {run s : List Char} {groups : List (List Char)} (hRun : least ≤ run.length)
      (h : Matches parts s groups) : Matches (.group least :: parts) (run ++ s) (run :: groups)

/-- A header with something behind its keyword, a header with anything behind it, and a row between pipes. -/
def namePattern (keyword : String) : List Part :=
  [.blanks, .text keyword, .blanks, .group 1]

def headerPattern (keyword : String) : List Part :=
  [.blanks, .text keyword, .blanks, .group 0]

def rowPattern : List Part :=
  [.blanks, .text "|", .group 0, .text "|", .blanks]

inductive PatternReads (inExamples : Prop) (line : List Char) : EventKind → Prop
  | feature {name : List Char} (h : Matches (namePattern "Feature:") line [name]) :
      PatternReads inExamples line (.feature (trimmedText name))
  | scenario {name : List Char} (h : Matches (namePattern "Scenario:") line [name]) :
      PatternReads inExamples line (.scenario (trimmedText name) false)
  | outline {name : List Char} (h : Matches (namePattern "Scenario Outline:") line [name]) :
      PatternReads inExamples line (.scenario (trimmedText name) true)
  | examples {rest : List Char} (h : Matches (headerPattern "Examples:") line [rest]) :
      PatternReads inExamples line .examples
  | tableRow (hOpen : inExamples) {inside : List Char} (h : Matches rowPattern line [inside]) :
      PatternReads inExamples line (.tableRow ((pieces '|' inside).map trimmedText))

theorem matches_nil_iff {s : List Char} {groups : List (List Char)} : Matches [] s groups ↔ s = [] ∧ groups = [] := by
  constructor
  · intro h
    cases h with
    | nil => exact ⟨rfl, rfl⟩
  · rintro ⟨rfl, rfl⟩
    exact .nil

theorem matches_blanks_iff {parts : List Part} {s : List Char} {groups : List (List Char)} :
    Matches (.blanks :: parts) s groups ↔
      ∃ run rest, (∀ c ∈ run, isBlank c = true) ∧ s = run ++ rest ∧ Matches parts rest groups := by
  constructor
  · intro h
    cases h with
    | blanks hRun h => exact ⟨_, _, hRun, rfl, h⟩
  · rintro ⟨run, rest, hRun, rfl, h⟩
    exact .blanks hRun h

theorem matches_text_iff {word : String} {parts : List Part} {s : List Char} {groups : List (List Char)} :
    Matches (.text word :: parts) s groups ↔ ∃ rest, s = word.toList ++ rest ∧ Matches parts rest groups := by
  constructor
  · intro h
    cases h with
    | text _ h => exact ⟨_, rfl, h⟩
  · rintro ⟨rest, rfl, h⟩
    exact .text word h

theorem matches_group_iff {least : Nat} {parts : List Part} {s run : List Char} {groups : List (List Char)} :
    Matches (.group least :: parts) s (run :: groups) ↔
      least ≤ run.length ∧ ∃ rest, s = run ++ rest ∧ Matches parts rest groups := by
  constructor
  · intro h
    cases h with
    | group hRun h => exact ⟨hRun, _, rfl, h⟩
  · rintro ⟨hRun, rest, rfl, h⟩
    exact .group hRun h

/-- A header matches in as many ways as there are blanks behind its keyword, all with the same name. -/
theorem matches_header_iff {keyword : String} {c : Char} (hKeyword : keyword.toList.head? = some c)
    (hBlank : isBlank c = false) {least : Nat} {line name : List Char} :
    Matches [.blanks, .text keyword, .blanks, .group least] line [name] ↔ least ≤ name.length ∧
      ∃ blanks, (∀ d ∈ blanks, isBlank d = true) ∧ trimLeft line = keyword.toList ++ (blanks ++ name) := by
  simp only [matches_blanks_iff, matches_text_iff, matches_group_iff, matches_nil_iff]
  constructor
  · rintro ⟨first, _, hFirst, rfl, _, rfl, blanks, _, hBlanks, rfl, hName, _, rfl, rfl, -⟩
    refine ⟨hName, blanks, hBlanks, ?_⟩
    rw [trimLeft_append hFirst, List.append_nil, trimLeft, dropWhile_eq_self]
    intro d hd
    rw [List.head?_append, hKeyword] at hd
    cases hd
    exact hBlank
  · rintro ⟨hName, blanks, hBlanks, hLine⟩
    obtain ⟨first, hFirst, hAll⟩ := exists_blanks_of_trimLeft line
    exact ⟨first, _, hAll, hFirst, _, hLine, blanks, _, hBlanks, rfl, hName, [], (List.append_nil name).symm, rfl,
      trivial⟩

theorem matches_row_iff {line inside : List Char} :
    Matches rowPattern line [inside] ↔ trim line = '|' :: (inside ++ ['|']) := by
  rw [rowPattern]
  simp only [matches_blanks_iff, matches_text_iff, matches_group_iff, matches_nil_iff]
  constructor
  · rintro ⟨first, _, hFirst, rfl, _, rfl, -, _, rfl, _, rfl, last, _, hLast, rfl, rfl, -⟩
    have hText : "|".toList ++ (inside ++ ("|".toList ++ (last ++ []))) = '|' :: (inside ++ ['|']) ++ last := by
      simp
    rw [trim, trimLeft_append hFirst, hText, trimLeft, dropWhile_eq_self, trimRight_append hLast, trimRight,
      dropTrailing_eq_self]
    · intro c hc
      rw [← List.cons_append, List.getLast?_concat] at hc
      cases hc
      rfl
    · intro c hc
      cases hc
      rfl
  · intro hLine
    obtain ⟨first, hFirst, hAll⟩ := exists_blanks_of_trimLeft line
    obtain ⟨last, hLast, hBlanks⟩ := exists_blanks_of_trim line
    rw [hLine] at hLast
    exact ⟨first, _, hAll, hFirst, inside ++ '|' :: last, by simp [hLast], Nat.zero_le _, '|' :: last, rfl, last, rfl,
      last, [], hBlanks, (List.append_nil last).symm, rfl, trivial⟩

theorem trimmedText_append {blanks : List Char} (h : ∀ c ∈ blanks, isBlank c = true) (s : List Char) :
    trimmedText (blanks ++ s) = trimmedText s := by
  rw [trimmedText, trim, trimLeft_append h, trimmedText, trim]

/-- The blanks that the pattern takes behind the keyword would be trimmed from the name. -/
theorem exists_rest_of_matches {keyword : String} {c : Char} (hKeyword : keyword.toList.head? = some c)
    (hBlank : isBlank c = false) {line name : List Char} (h : Matches (namePattern keyword) line [name]) :
    ∃ rest, rest ≠ [] ∧ trimLeft line = keyword.toList ++ rest ∧ trimmedText rest = trimmedText name := by
  obtain ⟨hName, blanks, hBlanks, hLine⟩ := (matches_header_iff hKeyword hBlank).mp h
  refine ⟨blanks ++ name, ?_, hLine, trimmedText_append hBlanks name⟩
  exact List.append_ne_nil_of_right_ne_nil blanks (List.length_pos_iff.mp hName)

theorem lineReads_iff_patternReads (inExamples : Prop) (line : List Char) (kind : EventKind) :
    LineReads inExamples line kind ↔ PatternReads inExamples line kind := by
  constructor
  · intro h
    cases h with
    | @feature rest hRest h =>
      exact .feature ((matches_header_iff rfl rfl).mpr
        ⟨List.length_pos_iff.mpr hRest, [], List.forall_mem_nil _, h⟩)
    | @scenario rest hRest h =>
      exact .scenario ((matches_header_iff rfl rfl).mpr
        ⟨List.length_pos_iff.mpr hRest, [], List.forall_mem_nil _, h⟩)
    | @outline rest hRest h =>
      exact .outline ((matches_header_iff rfl rfl).mpr
        ⟨List.length_pos_iff.mpr hRest, [], List.forall_mem_nil _, h⟩)
    | @examples rest h =>
      exact .examples ((matches_header_iff rfl rfl).mpr ⟨Nat.zero_le _, [], List.forall_mem_nil _, h⟩)
    | @tableRow hOpen cells hCells hPipes h =>
      have hRow := PatternReads.tableRow hOpen (matches_row_iff.mpr h)
      rwa [pieces_intercalate hCells hPipes] at hRow
  · intro h
    cases h with
    | feature h =>
      obtain ⟨rest, hRest, hLine, hName⟩ := exists_rest_of_matches rfl rfl h
      rw [← hName]
      exact .feature hRest hLine
    | scenario h =>
      obtain ⟨rest, hRest, hLine, hName⟩ := exists_rest_of_matches rfl rfl h
      rw [← hName]
      exact .scenario hRest hLine
    | outline h =>
      obtain ⟨rest, hRest, hLine, hName⟩ := exists_rest_of_matches rfl rfl h
      rw [← hName]
      exact .outline hRest hLine
    | examples h =>
      obtain ⟨-, blanks, -, hLine⟩ := (matches_header_iff rfl rfl).mp h
      exact .examples hLine
    | @tableRow hOpen inside h =>
      refine .tableRow hOpen (pieces_ne_nil '|' inside) (fun cell hCell => (of_mem_pieces hCell).1) ?_
      rw [intercalate_pieces, matches_row_iff.mp h]

/-! ## Blocks of examples -/

def InExamples (events : List Event) (number : Nat) : Prop :=
  ∃ e ∈ events, e.kind = .examples ∧ e.line < number ∧
    ∀ f ∈ events, e.line < f.line → f.line < number → f.row?.isSome = true

def OnlyRows (events : List Event) (number : Nat) : Prop :=
  ∀ f ∈ events, f.line < number → f.row?.isSome = true

/-- The line stands in a block of these events, or in one from before them that has only had rows since. -/
def OpenAt (inExamples : Bool) (events : List Event) (number : Nat) : Prop :=
  InExamples events number ∨ (inExamples = true ∧ OnlyRows events number)

theorem openAt_of_le {inExamples : Bool} {events : List Event} {number : Nat} (h : ∀ e ∈ events, number ≤ e.line) :
    OpenAt inExamples events number ↔ inExamples = true := by
  constructor
  · rintro (⟨e, he, -, hLine, -⟩ | ⟨hOpen, -⟩)
    · exact absurd hLine (Nat.not_lt.mpr (h e he))
    · exact hOpen
  · intro hOpen
    exact .inr ⟨hOpen, fun f hf hLine => absurd hLine (Nat.not_lt.mpr (h f hf))⟩

theorem inExamples_cons {e : Event} {events : List Event} {number : Nat} (hLine : e.line < number)
    (hLater : ∀ f ∈ events, e.line < f.line) :
    InExamples (e :: events) number ↔ (e.kind = .examples ∧ OnlyRows events number) ∨ InExamples events number := by
  constructor
  · rintro ⟨header, hHeader, hKind, hBefore, hRows⟩
    rcases List.mem_cons.mp hHeader with rfl | hHeader
    · exact .inl ⟨hKind, fun f hf => hRows f (List.mem_cons_of_mem _ hf) (hLater f hf)⟩
    · exact .inr ⟨header, hHeader, hKind, hBefore, fun f hf => hRows f (List.mem_cons_of_mem e hf)⟩
  · rintro (⟨hKind, hRows⟩ | ⟨header, hHeader, hKind, hBefore, hRows⟩)
    · refine ⟨e, List.mem_cons_self, hKind, hLine, ?_⟩
      intro f hf hAfter
      rcases List.mem_cons.mp hf with rfl | hf
      · exact absurd hAfter (Nat.lt_irrefl _)
      · exact hRows f hf
    · refine ⟨header, List.mem_cons_of_mem e hHeader, hKind, hBefore, ?_⟩
      intro f hf hAfter
      rcases List.mem_cons.mp hf with rfl | hf
      · exact absurd hAfter (Nat.lt_asymm (hLater header hHeader))
      · exact hRows f hf hAfter

/-- One event opens a block, keeps the open one or closes it. -/
theorem openAt_cons {inExamples : Bool} {e : Event} {events : List Event} {number : Nat} (hLine : e.line < number)
    (hLater : ∀ f ∈ events, e.line < f.line) (hRow : e.row?.isSome = true → inExamples = true) :
    OpenAt inExamples (e :: events) number ↔ OpenAt e.kind.keepsExamples events number := by
  rw [OpenAt, OpenAt, inExamples_cons hLine hLater]
  have hAll : OnlyRows (e :: events) number ↔ e.row?.isSome = true ∧ OnlyRows events number := by
    simp [OnlyRows, hLine]
  rw [hAll]
  obtain ⟨line, width, kind⟩ := e
  cases kind with
  | feature name => simp [EventKind.keepsExamples, Event.row?]
  | scenario name isOutline => simp [EventKind.keepsExamples, Event.row?]
  | examples => simp [EventKind.keepsExamples, Event.row?, or_comm]
  | tableRow cells => simp [EventKind.keepsExamples, Event.row?, hRow rfl]

/-! ## All lines -/

/-- The event is what its line says, where the lines have these events and are counted from some number on. -/
def EventAt (inExamples : Bool) (events : List Event) (number : Nat) (lines : List (List Char)) (e : Event) : Prop :=
  ∃ raw, number ≤ e.line ∧ lines[e.line - number]? = some raw ∧ e.width = (dropTrailing (· == '\r') raw).length ∧
    LineReads (OpenAt inExamples events e.line) (dropTrailing (· == '\r') raw) e.kind

theorem eventAt_cons_iff (inExamples : Bool) (events : List Event) (number : Nat) (raw : List Char)
    (lines : List (List Char)) (e : Event) : EventAt inExamples events number (raw :: lines) e ↔
      (e.line = number ∧ e.width = (dropTrailing (· == '\r') raw).length ∧
        LineReads (OpenAt inExamples events number) (dropTrailing (· == '\r') raw) e.kind) ∨
      EventAt inExamples events (number + 1) lines e := by
  have hLater : number < e.line → (raw :: lines)[e.line - number]? = lines[e.line - (number + 1)]? := by
    intro h
    rw [show e.line - number = e.line - (number + 1) + 1 by omega, List.getElem?_cons_succ]
  constructor
  · rintro ⟨other, hLine, hOther, hWidth, hReads⟩
    rcases Nat.eq_or_lt_of_le hLine with rfl | hLine
    · rw [Nat.sub_self, List.getElem?_cons_zero] at hOther
      cases hOther
      exact .inl ⟨rfl, hWidth, hReads⟩
    · exact .inr ⟨other, hLine, (hLater hLine).symm.trans hOther, hWidth, hReads⟩
  · rintro (⟨rfl, hWidth, hReads⟩ | ⟨other, hLine, hOther, hWidth, hReads⟩)
    · exact ⟨raw, Nat.le_refl _, by rw [Nat.sub_self, List.getElem?_cons_zero], hWidth, hReads⟩
    · exact ⟨other, Nat.le_of_succ_le hLine, (hLater hLine).trans hOther, hWidth, hReads⟩

/-- An event that the later lines do not have changes at most which block is open. -/
theorem eventAt_congr {inExamples other : Bool} {events others : List Event} {number : Nat} {lines : List (List Char)}
    (h : ∀ line, number ≤ line → (OpenAt inExamples events line ↔ OpenAt other others line)) (e : Event) :
    EventAt inExamples events number lines e ↔ EventAt other others number lines e := by
  constructor
  · rintro ⟨raw, hLine, hRaw, hWidth, hReads⟩
    rw [h e.line hLine] at hReads
    exact ⟨raw, hLine, hRaw, hWidth, hReads⟩
  · rintro ⟨raw, hLine, hRaw, hWidth, hReads⟩
    rw [← h e.line hLine] at hReads
    exact ⟨raw, hLine, hRaw, hWidth, hReads⟩

theorem mem_scanLines_iff (inExamples : Bool) (number : Nat) (lines : List (List Char)) (e : Event) :
    e ∈ scanLines inExamples number lines ↔
      EventAt inExamples (scanLines inExamples number lines) number lines e := by
  induction lines generalizing inExamples number with
  | nil => simp [scanLines, EventAt]
  | cons raw lines ih =>
    -- For the first line all events are later ones, so that the block from before is the open one.
    have hFirst : OpenAt inExamples (scanLines inExamples number (raw :: lines)) number ↔ inExamples = true :=
      openAt_of_le line_of_mem_scanLines
    have hRows := rowsInBlocks_scanLines inExamples number (raw :: lines)
    rw [eventAt_cons_iff, hFirst, ← ofLine?_eq_some_iff]
    rw [scanLines] at hRows ⊢
    cases hKind : EventKind.ofLine? inExamples (dropTrailing (· == '\r') raw) with
    | none => simp [ih]
    | some kind =>
      rw [hKind] at hRows
      have hOpen : ∀ line, number + 1 ≤ line → (OpenAt inExamples
          (⟨number, (dropTrailing (· == '\r') raw).length, kind⟩ :: scanLines kind.keepsExamples (number + 1) lines)
          line ↔ OpenAt kind.keepsExamples (scanLines kind.keepsExamples (number + 1) lines) line) :=
        fun line hLine => openAt_cons hLine line_of_mem_scanLines hRows.1
      rw [List.mem_cons, ih, eventAt_congr hOpen]
      apply or_congr_left
      obtain ⟨line, width, other⟩ := e
      simp [eq_comm (a := kind)]

theorem openAt_false_iff (events : List Event) (number : Nat) :
    OpenAt false events number ↔ InExamples events number := by
  simp [OpenAt]

theorem exists_line_iff_mem_scan (text : String) (e : Event) :
    e ∈ scan text ↔ ∃ raw, (pieces '\n' text.toList)[e.line]? = some raw ∧
      e.width = (dropTrailing (· == '\r') raw).length ∧
      LineReads (InExamples (scan text) e.line) (dropTrailing (· == '\r') raw) e.kind := by
  have hScan := mem_scanLines_iff false 0 (pieces '\n' text.toList) e
  rw [← scan, EventAt] at hScan
  simpa only [openAt_false_iff, Nat.zero_le, true_and, Nat.sub_zero] using hScan

/-- The events of a text are the lines that the grammar reads, in their order and one for each at most. The grammar reads
a line in one way, and as the patterns do. -/
theorem mem_scan_iff (text : String) :
    ((scan text).Pairwise fun e f => e.line < f.line) ∧
    (∀ e, e ∈ scan text ↔ ∃ raw, (pieces '\n' text.toList)[e.line]? = some raw ∧
      e.span = ⟨⟨e.line, 0⟩, ⟨e.line, (dropTrailing (· == '\r') raw).length⟩⟩ ∧
      LineReads (InExamples (scan text) e.line) (dropTrailing (· == '\r') raw) e.kind) ∧
    (∀ inExamples line kind other, LineReads inExamples line kind → LineReads inExamples line other → kind = other) ∧
    ∀ inExamples line kind, LineReads inExamples line kind ↔ PatternReads inExamples line kind := by
  refine ⟨pairwise_scanLines false 0 _, ?_, fun _ _ _ _ h hOther => h.unique hOther, lineReads_iff_patternReads⟩
  intro e
  rw [exists_line_iff_mem_scan]
  simp [Event.span, Span.ofLine]

/-- A header without a name is none, a single pipe is no row, and a name may be blank. -/
theorem mem_scan_of_short_lines :
    scan "Scenario:\nExamples:\n|\n || \r\nFeature: " =
      [⟨1, 9, .examples⟩, ⟨3, 4, .tableRow [""]⟩, ⟨4, 9, .feature ""⟩] ∧
    PatternReads (InExamples (scan "Scenario:\nExamples:\n|\n || \r\nFeature: ") 3) " || ".toList (.tableRow [""]) := by
  have hScan : scan "Scenario:\nExamples:\n|\n || \r\nFeature: " =
      [⟨1, 9, .examples⟩, ⟨3, 4, .tableRow [""]⟩, ⟨4, 9, .feature ""⟩] := by
    decide +kernel
  have hMem : ⟨3, 4, .tableRow [""]⟩ ∈ scan "Scenario:\nExamples:\n|\n || \r\nFeature: " := by
    rw [hScan]
    simp
  obtain ⟨-, hEvents, -, hPatterns⟩ := mem_scan_iff "Scenario:\nExamples:\n|\n || \r\nFeature: "
  obtain ⟨raw, hRaw, -, hReads⟩ := (hEvents _).mp hMem
  have hLine : raw = " || \r".toList := by
    apply Option.some.inj
    rw [← hRaw]
    rfl
  rw [hLine] at hReads
  exact ⟨hScan, (hPatterns _ _ _).mp hReads⟩

end ScenarioRunner.Feature
