import ScenarioRunner.Proofs.Transcript.FailureMessage

/-!
# The lines of a failure message

A reader in the middle of a section has that section behind it. Main statement: every message comes from the block of a
section, and none of its lines would have ended the block. Exactly if the marker of a section stands in the block, it
stands in the message.
-/

namespace ScenarioRunner.Transcript

open ScenarioRunner.Text

set_option autoImplicit false

/-! ## A trimmed line is the same kind of line -/

theorem isWordChar_of_isBlank {c : Char} (h : isBlank c = true) : isWordChar c = false := by
  have hBlanks : ∀ n ∈ [9, 10, 11, 12, 13, 28, 29, 30, 31, 32, 0x85, 0xA0, 0x1680, 0x2000, 0x2001, 0x2002, 0x2003,
      0x2004, 0x2005, 0x2006, 0x2007, 0x2008, 0x2009, 0x200A, 0x2028, 0x2029, 0x202F, 0x205F, 0x3000],
      isWordChar (Char.ofNat n) = false := by decide +kernel
  rw [← Char.ofNat_toNat c]
  apply hBlanks
  simp only [isBlank, Bool.or_eq_true, Bool.and_eq_true, decide_eq_true_eq, beq_iff_eq] at h
  simp only [List.mem_cons, List.not_mem_nil, or_false]
  omega

theorem trimLeft_trim (line : List Char) : trimLeft (trim line) = trim line :=
  dropWhile_eq_self (isBlank_head_trim line)

theorem afterMark?_append {marks s rest : List Char} (h : afterMark? marks s = some rest) (t : List Char) :
    afterMark? marks (s ++ t) = some (rest ++ t) := by
  cases s with
  | nil => cases h
  | cons c s =>
    rw [afterMark?] at h
    rw [List.cons_append, afterMark?]
    split_ifs at h ⊢ with hMark
    rw [after?_eq_some_iff] at h ⊢
    rw [h, List.append_assoc]

theorem startsWithWord_append {word s blanks : List Char} (h : startsWithWord word s = true)
    (hBlanks : ∀ c ∈ blanks, isBlank c = true) : startsWithWord word (s ++ blanks) = true := by
  rw [startsWithWord] at h ⊢
  split at h
  · next rest hRest =>
    have hAfter : after? word (s ++ blanks) = some (rest ++ blanks) := by
      rw [after?_eq_some_iff] at hRest ⊢
      rw [hRest, List.append_assoc]
    rw [hAfter]
    cases rest with
    | cons c rest => exact h
    | nil =>
      -- The word ended with the line, and now ends with a blank.
      cases blanks with
      | nil => rfl
      | cons c blanks => simp [endsWord, isWordChar_of_isBlank (hBlanks c List.mem_cons_self)]
  · cases h

theorem isNextStep_of_trim {line : List Char} (h : isNextStep (trim line) = true) : isNextStep line = true := by
  obtain ⟨blanks, hLine, hBlanks⟩ := exists_blanks_of_trim line
  rw [isNextStep, trimLeft_trim] at h
  rw [isNextStep, hLine]
  split at h
  · next s hMark =>
    obtain ⟨word, hWord, hStarts⟩ := List.any_eq_true.mp h
    rw [afterMark?_append hMark]
    exact List.any_eq_true.mpr ⟨word, hWord, startsWithWord_append hStarts hBlanks⟩
  · cases h

theorem isNumberedScenario_of_trim {line : List Char} (h : isNumberedScenario (trim line) = true) :
    isNumberedScenario line = true := by
  obtain ⟨blanks, hLine, hBlanks⟩ := exists_blanks_of_trim line
  rw [isNumberedScenario, trimLeft_trim] at h
  rw [isNumberedScenario, hLine]
  split at h
  · next digits s hRun =>
    obtain ⟨rest, hRest⟩ := Option.isSome_iff_exists.mp h
    rw [after?_eq_some_iff] at hRest
    have hShorter := length_of_run? hRun
    obtain ⟨hText, hDigits⟩ := eq_append_of_run? hRun
    have hNonempty : digits ≠ [] := by
      rintro rfl
      rw [hText] at hShorter
      exact absurd hShorter (Nat.lt_irrefl _)
    have hParen : isDigit ')' = false := by decide
    rw [hText, hRest, List.append_assoc]
    have hAll : run? isDigit (digits ++ (") Scenario".toList ++ rest ++ blanks)) =
        some (digits, ") Scenario".toList ++ (rest ++ blanks)) := by
      rw [List.append_assoc]
      exact run?_digits hNonempty hDigits hParen _
    rw [hAll]
    exact congrArg Option.isSome (after?_append _ _)
  · cases h

theorem endsBlock_trim {line : List Char} (h : endsBlock line = false) : endsBlock (trim line) = false := by
  obtain ⟨hOpening, hStep, hNumbered⟩ := endsBlock_eq_false_iff.mp h
  refine endsBlock_eq_false_iff.mpr ⟨by rwa [trim_trim], ?_, ?_⟩
  · exact Bool.eq_false_iff.mpr fun hTrim => Bool.eq_false_iff.mp hStep (isNextStep_of_trim hTrim)
  · exact Bool.eq_false_iff.mpr fun hTrim => Bool.eq_false_iff.mp hNumbered (isNumberedScenario_of_trim hTrim)

/-! ## The section behind a reader -/

def Mode.InSection (read : List (List Char)) : Mode → Prop
  | .failureCapture none => ∃ start, start <:+ read ∧ SectionStart start
  | .failureCapture (some lines) =>
    ∃ behind block, behind <:+ read ∧ FailureSection behind block ∧ lines = (block.map trim).reverse
  | _ => True

structure Reader.InSection (read : List (List Char)) (r : Reader) : Prop where
  mode : r.mode.InSection read
  message : ∀ m, r.failureMessage = some m →
    ∃ behind block, behind <:+: read ∧ FailureSection behind block ∧ textOf? block = some m

theorem suffix_concat {lines read : List (List Char)} (h : lines <:+ read) (line : List Char) :
    lines ++ [line] <:+ read ++ [line] := by
  obtain ⟨before, rfl⟩ := h
  exact ⟨before, (List.append_assoc before lines [line]).symm⟩

theorem Reader.Moves.inSection {r : Reader} {line : List Char} {m : Mode} (hMove : r.Moves line m)
    {read : List (List Char)} (h : r.mode.InSection read) : m.InSection (read ++ [line]) := by
  cases hMove with
  | marked hMarker => exact ⟨[line], List.suffix_append read [line], .lines hMarker (by simp)⟩
  | waiting hMode hFailed hOpening =>
    rw [hMode] at h
    obtain ⟨start, hSuffix, hStart⟩ := h
    exact ⟨start ++ [line], suffix_concat hSuffix line, hStart.concat hFailed hOpening⟩
  | failing hMode hFailed =>
    rw [hMode] at h
    obtain ⟨start, hSuffix, hStart⟩ := h
    exact ⟨start ++ [line], [], suffix_concat hSuffix line, .lines hStart hFailed (by simp), rfl⟩
  | collecting hMode hEnds =>
    rw [hMode] at h
    obtain ⟨behind, block, hSuffix, hSection, rfl⟩ := h
    exact ⟨behind ++ [line], block ++ [line], suffix_concat hSuffix line, hSection.concat hEnds, by simp⟩
  | _ => trivial

theorem Reader.InSection.messageAtSummary {read : List (List Char)} {r : Reader} (h : r.InSection read) :
    ∀ m, r.messageAtSummary = some m →
      ∃ behind block, behind <:+: read ∧ FailureSection behind block ∧ textOf? block = some m := by
  intro m hm
  obtain ⟨mode, message, held⟩ := r
  cases mode with
  | failureCapture lines =>
    rcases Option.or_eq_some_iff.mp hm with hm | ⟨-, hm⟩
    · exact h.message m hm
    · cases lines with
      | none => cases hm
      | some lines =>
        obtain ⟨behind, block, hSuffix, hSection, rfl⟩ := h.mode
        rw [blockMessage_eq_textOf?] at hm
        exact ⟨behind, block, hSuffix.isInfix, hSection, hm⟩
  | _ => exact h.message m hm

theorem Reader.InSection.readLine {read : List (List Char)} {r : Reader} (h : r.InSection read) (line : List Char) :
    (r.readLine line).InSection (read ++ [cleanLine line]) := by
  obtain ⟨hMoves, hMessage⟩ := r.stepsTo_readLine line
  refine ⟨hMoves.inSection h.mode, fun m hm => ?_⟩
  have hEarlier : ∃ behind block, behind <:+: read ∧ FailureSection behind block ∧ textOf? block = some m := by
    rcases hMessage with hSame | hEnded
    · exact h.message m (hSame.symm.trans hm)
    · exact h.messageAtSummary m (hEnded.symm.trans hm)
  obtain ⟨behind, block, hInfix, hSection⟩ := hEarlier
  exact ⟨behind, block, hInfix.trans (List.prefix_append read _).isInfix, hSection⟩

theorem Reader.InSection.settle {read : List (List Char)} {r : Reader} (h : r.InSection read) :
    r.settle.InSection read := by
  have hEnded := h.messageAtSummary
  obtain ⟨mode, message, held⟩ := r
  cases mode with
  | failureCapture lines => exact ⟨trivial, hEnded⟩
  | idle => exact h
  | summary scenarios steps => exact ⟨trivial, h.message⟩
  | done text => exact h

theorem Reader.inSection_afterCalls (subject : Subject) (calls : List Call) :
    (Reader.afterCalls subject calls).InSection (linesOf calls) := by
  have hStart : Reader.InSection [] {} := ⟨trivial, by simp⟩
  exact Reader.after_induction (P := fun read r => r.InSection read) (fun read r text h => ⟨h.mode, h.message⟩)
    (fun read r line h => h.readLine line) (fun read r h => h.settle) subject calls {} [] hStart

theorem notMem_linesFrom {held : List Char} (hHeld : '\n' ∉ held) (calls : List Call) :
    ∀ line ∈ linesFrom held calls, '\n' ∉ line := by
  induction calls generalizing held with
  | nil => simp [linesFrom]
  | cons call calls ih =>
    intro line hLine
    cases call with
    | feed chunk =>
      rcases List.mem_append.mp hLine with hLine | hLine
      · exact notMem_endedLines _ line hLine
      · exact ih (notMem_openLine _) line hLine
    | feedLine text =>
      rcases List.mem_append.mp hLine with hLine | hLine
      · have hCut : completeLines text.toList ⊆ pieces '\n' text.toList := by
          rw [completeLines]
          split
          · exact (List.dropLast_sublist _).subset
          · exact List.Subset.refl _
        exact (of_mem_pieces (hCut hLine)).1
      · exact ih hHeld line hLine
    | finish =>
      rcases List.mem_append.mp hLine with hLine | hLine
      · split_ifs at hLine
        · cases hLine
        · rwa [List.mem_singleton.mp hLine]
      · exact ih List.not_mem_nil line hLine

theorem suffix_of_afterCode? {shape : CodeShape} {s rest : List Char} (h : afterCode? shape s = some rest) :
    rest <:+ s := by
  unfold afterCode? at h
  split at h
  · next s =>
    split at h
    · cases h
    · next c tail hTail =>
      split_ifs at h
      cases h
      have hAfter : c :: rest <:+ s := by
        rw [← hTail]
        exact (List.dropWhile_suffix _).trans (List.dropWhile_suffix _)
      exact ((List.suffix_cons c rest).trans hAfter).trans (List.suffix_cons '[' s)
  · cases h

theorem removeCodes_subset (shape : CodeShape) (s : List Char) : removeCodes shape s ⊆ s := by
  fun_induction removeCodes shape s with
  | case1 => exact List.Subset.refl _
  | case2 s rest hRest ih =>
    exact List.Subset.trans ih (List.Subset.trans (suffix_of_afterCode? hRest).subset (List.subset_cons_self _ s))
  | case3 s hNone ih => exact List.cons_subset_cons _ ih
  | case4 c s hEscape ih => exact List.cons_subset_cons c ih

theorem cleanLine_subset (line : List Char) : cleanLine line ⊆ line := by
  intro c hc
  have hStripped := dropTrailing_subset _ _ hc
  exact removeCodes_subset colourCode line (List.mem_filter.mp hStripped).1

theorem notMem_linesOf (calls : List Call) : ∀ line ∈ linesOf calls, '\n' ∉ line := by
  intro line hLine
  obtain ⟨raw, hRaw, rfl⟩ := List.mem_map.mp hLine
  exact fun hFeed => notMem_linesFrom List.not_mem_nil calls raw hRaw (cleanLine_subset raw hFeed)

theorem eq_of_textOf? {block : List (List Char)} {m : List Char} (h : textOf? block = some m) :
    m = trim (joinLines (block.map trim)) := by
  rw [textOf?] at h
  split_ifs at h
  exact (Option.some.inj h).symm

theorem FailureSection.block_subset {behind block : List (List Char)} (h : FailureSection behind block) :
    block ⊆ behind := by
  obtain ⟨hStart, hFailed, hBlock⟩ := h
  exact List.Subset.trans (List.subset_cons_self _ _) (List.subset_append_right _ _)

/-- A line with something in it stands in the message exactly if it stands in the block, trimmed. -/
theorem FailureSection.mem_pieces_iff {behind block : List (List Char)} {calls : List Call}
    (h : FailureSection behind block) (hBehind : behind <:+: linesOf calls) {m : List Char}
    (hText : textOf? block = some m) {line : List Char} (hLine : line ≠ []) :
    line ∈ pieces '\n' m ↔ ∃ other ∈ block, trim other = line := by
  rw [eq_of_textOf? hText, mem_pieces_trim_joinLines _ _ hLine, List.mem_map]
  · intro l hl
    obtain ⟨other, _, rfl⟩ := List.mem_map.mp hl
    exact trim_trim other
  · intro l hl
    obtain ⟨other, hOther, rfl⟩ := List.mem_map.mp hl
    exact fun hFeed => notMem_linesOf calls other (hBehind.subset (h.block_subset hOther)) (trim_subset other hFeed)

/-- No line of a message would have ended the block that the message comes from, and the marker of a section stands in
the message exactly if it stands in the block. -/
theorem lines_of_failureMessage (subject : Subject) (calls : List Call) (m : List Char)
    (h : (Reader.afterCalls subject calls).failureMessage = some m) :
    (∀ line ∈ pieces '\n' m, isSummaryOpening (trim line) = false ∧ isNextStep line = false ∧
      isNumberedScenario line = false) ∧
    ∃ behind block, behind <:+: linesOf calls ∧ FailureSection behind block ∧ textOf? block = some m ∧
      ((∃ line ∈ pieces '\n' m, isSectionMarker (trim line) = true) ↔
        ∃ line ∈ block, isSectionMarker (trim line) = true) := by
  obtain ⟨behind, block, hBehind, hSection, hText⟩ := (Reader.inSection_afterCalls subject calls).message m h
  have hEmpty : endsBlock [] = false ∧ isSectionMarker (trim []) = false := by decide
  have hMem : ∀ line, line ≠ [] → (line ∈ pieces '\n' m ↔ ∃ other ∈ block, trim other = line) :=
    fun line hLine => hSection.mem_pieces_iff hBehind hText hLine
  constructor
  · intro line hLine
    rw [← endsBlock_eq_false_iff]
    by_cases hNil : line = []
    · rw [hNil]
      exact hEmpty.1
    · obtain ⟨other, hOther, rfl⟩ := (hMem line hNil).mp hLine
      obtain ⟨hStart, hFailed, hBlock⟩ := hSection
      exact endsBlock_trim (hBlock other hOther)
  · refine ⟨behind, block, hBehind, hSection, hText, ?_, ?_⟩
    · rintro ⟨line, hLine, hMarker⟩
      have hNil : line ≠ [] := by
        rintro rfl
        rw [hEmpty.2] at hMarker
        cases hMarker
      obtain ⟨other, hOther, rfl⟩ := (hMem line hNil).mp hLine
      rw [trim_trim] at hMarker
      exact ⟨other, hOther, hMarker⟩
    · rintro ⟨line, hLine, hMarker⟩
      have hNil : trim line ≠ [] := by
        intro hTrim
        rw [hTrim] at hMarker
        cases hMarker
      refine ⟨trim line, (hMem _ hNil).mpr ⟨line, hLine, rfl⟩, ?_⟩
      rwa [trim_trim]

def adjacentSections : List Call :=
  ["Failures:", "  ✖ Then it is paid", "    boom", "Warnings:", "  ? Given a card"].map Call.feedLine

theorem failureMessage_adjacentSections :
    (Reader.afterCalls ⟨"Pay", false⟩ adjacentSections).failureMessage = some "boom\nWarnings:".toList := by
  decide +kernel

theorem lines_of_failureMessage_adjacentSections :
    (Reader.afterCalls ⟨"Pay", false⟩ adjacentSections).failureMessage = some "boom\nWarnings:".toList ∧
    (∀ line ∈ pieces '\n' "boom\nWarnings:".toList, isSummaryOpening (trim line) = false ∧ isNextStep line = false ∧
      isNumberedScenario line = false) ∧
    ∃ behind block, behind <:+: linesOf adjacentSections ∧ FailureSection behind block ∧
      ∃ line ∈ block, isSectionMarker (trim line) = true := by
  obtain ⟨hLines, behind, block, hBehind, hSection, -, hMarker⟩ :=
    lines_of_failureMessage _ _ _ failureMessage_adjacentSections
  have hWarnings : ∃ line ∈ pieces '\n' "boom\nWarnings:".toList, isSectionMarker (trim line) = true :=
    ⟨"Warnings:".toList, by decide, by decide⟩
  exact ⟨failureMessage_adjacentSections, hLines, behind, block, hBehind, hSection, hMarker.mp hWarnings⟩

theorem not_forall_lines_not_isSectionMarker :
    ¬ ∀ (subject : Subject) (calls : List Call) (m : List Char),
      (Reader.afterCalls subject calls).failureMessage = some m → ∀ line ∈ pieces '\n' m,
        isSectionMarker (trim line) = false ∧ isSummaryOpening (trim line) = false ∧
          isNumberedScenario line = false ∧ isNextStep line = false := by
  intro h
  have hLine : "Warnings:".toList ∈ pieces '\n' "boom\nWarnings:".toList := by decide
  have hMarker : isSectionMarker (trim "Warnings:".toList) = true := by decide
  rw [(h _ _ _ failureMessage_adjacentSections _ hLine).1] at hMarker
  cases hMarker

end ScenarioRunner.Transcript
