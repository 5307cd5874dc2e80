import ScenarioRunner.Proofs.Text.JoinedLines
import ScenarioRunner.Proofs.Transcript.Modes

/-!
# The failure message

A marker opens a section, the first failing step in it opens a block, and the block goes on up to the next step, the next
numbered scenario or the summary. Main statements: the message is the trimmed text of the first such block, and no line
of it would have ended the block. The marker of a further section ends no block, and so becomes a line of the message.
-/

namespace ScenarioRunner.Transcript

open ScenarioRunner.Text

set_option autoImplicit false

/-! ## Sections and blocks -/

/-- The clean lines of a section before its first failing step. -/
inductive SectionStart : List (List Char) → Prop where
  | lines {marker : List Char} {before : List (List Char)} (hMarker : isSectionMarker (trim marker) = true)
      (hBefore : ∀ line ∈ before, isFailedStep line = false ∧ isSummaryOpening (trim line) = false) :
      SectionStart (marker :: before)

inductive FailureSection : List (List Char) → List (List Char) → Prop where
  | lines {start block : List (List Char)} {failed : List Char} (hStart : SectionStart start)
      (hFailed : isFailedStep failed = true) (hBlock : ∀ line ∈ block, endsBlock line = false) :
      FailureSection (start ++ failed :: block) block

def textOf? (block : List (List Char)) : Option (List Char) :=
  if trim (joinLines (block.map trim)) = [] then none else some (trim (joinLines (block.map trim)))

theorem SectionStart.concat {lines : List (List Char)} (h : SectionStart lines) {line : List Char}
    (hFailed : isFailedStep line = false) (hOpening : isSummaryOpening (trim line) = false) :
    SectionStart (lines ++ [line]) := by
  obtain ⟨hMarker, hBefore⟩ := h
  apply SectionStart.lines hMarker
  intro other hOther
  rcases List.mem_append.mp hOther with hOther | hOther
  · exact hBefore other hOther
  · obtain rfl := List.mem_singleton.mp hOther
    exact ⟨hFailed, hOpening⟩

theorem FailureSection.concat {lines block : List (List Char)} (h : FailureSection lines block) {line : List Char}
    (hEnds : endsBlock line = false) : FailureSection (lines ++ [line]) (block ++ [line]) := by
  obtain ⟨hStart, hFailed, hBlock⟩ := h
  rw [List.append_assoc, List.cons_append]
  apply FailureSection.lines hStart hFailed
  intro other hOther
  rcases List.mem_append.mp hOther with hOther | hOther
  · exact hBlock other hOther
  · obtain rfl := List.mem_singleton.mp hOther
    exact hEnds

theorem blockMessage_eq_textOf? (block : List (List Char)) :
    blockMessage (some (block.map trim).reverse) = textOf? block := by
  rw [blockMessage, textOf?, Option.getD_some, List.reverse_reverse]
  split
  · next h => rw [if_pos h]
  · next h => rw [if_neg h]

theorem endsBlock_eq_false_iff {line : List Char} : endsBlock line = false ↔
    isSummaryOpening (trim line) = false ∧ isNextStep line = false ∧ isNumberedScenario line = false := by
  rw [endsBlock, Bool.or_eq_false_iff, Bool.or_eq_false_iff, and_assoc]

theorem isSummaryOpening_eq_false {line : List Char} (h : ∀ c ∈ line.head?, isDigit c = false) :
    isSummaryOpening line = false := by
  simp [isSummaryOpening, CountPhrase.read?, run?_eq_none h]

/-- A summary opens with a digit, and a failing step with its mark. -/
theorem isSummaryOpening_of_isFailedStep {line : List Char} (h : isFailedStep line = true) :
    isSummaryOpening (trim line) = false := by
  have hMarks : ['✖', '×', '?'].all (fun c => !isDigit c) = true := by decide
  apply isSummaryOpening_eq_false
  intro c hc
  obtain ⟨rest, hRest⟩ : trim line <+: trimLeft line := List.rdropWhile_prefix isBlank (trimLeft line)
  obtain ⟨tail, hTail⟩ := List.head?_eq_some_iff.mp hc
  rw [hTail] at hRest
  rw [isFailedStep, ← hRest, List.cons_append, afterMark?] at h
  split_ifs at h with hMark
  · simpa using List.all_eq_true.mp hMarks c (by simpa using hMark)
  · cases h

/-! ## Reading a section -/

section Lines

variable {r : Reader} {line : List Char} {lines : List (List Char)}

theorem Reader.readLine_marker (hMode : r.mode = .idle) (h : isSectionMarker (trim (cleanLine line)) = true) :
    r.readLine line = { r with mode := .failureCapture none } := by
  simp only [Reader.readLine, hMode, Reader.readIdle, h, if_true]

theorem Reader.readLine_waiting (hMode : r.mode = .failureCapture none)
    (hFailed : isFailedStep (cleanLine line) = false)
    (hOpening : isSummaryOpening (trim (cleanLine line)) = false) : r.readLine line = r := by
  simp only [Reader.readLine, hMode, Reader.readFailure, hFailed, hOpening, Bool.false_eq_true, if_false]

theorem Reader.readLine_failing (hMode : r.mode = .failureCapture none) (h : isFailedStep (cleanLine line) = true) :
    r.readLine line = { r with mode := .failureCapture (some []) } := by
  simp only [Reader.readLine, hMode, Reader.readFailure, h, isSummaryOpening_of_isFailedStep h, Bool.false_eq_true,
    if_false, if_true]

theorem Reader.readLine_collecting (hMode : r.mode = .failureCapture (some lines))
    (h : endsBlock (cleanLine line) = false) :
    r.readLine line = { r with mode := .failureCapture (some (trim (cleanLine line) :: lines)) } := by
  obtain ⟨hOpening, hStep, hNumbered⟩ := endsBlock_eq_false_iff.mp h
  simp only [Reader.readLine, hMode, Reader.readFailure, hOpening, hStep, hNumbered, Bool.or_self, Bool.false_eq_true,
    if_false]

theorem Reader.failureMessage_readIdle (r : Reader) (line : List Char) :
    (r.readIdle line).failureMessage = r.failureMessage := by
  simp only [Reader.readIdle]
  split_ifs <;> rfl

theorem Reader.failureMessage_readLine_ending (hMode : r.mode = .failureCapture (some lines))
    (h : endsBlock (cleanLine line) = true) :
    (r.readLine line).failureMessage = r.failureMessage.or (blockMessage (some lines)) := by
  simp only [Reader.readLine, hMode, Reader.readFailure]
  split_ifs with hOpening hEnds
  · exact Reader.failureMessage_readIdle _ _
  · rfl
  · rw [endsBlock, Bool.or_assoc, Bool.or_eq_true] at h
    exact absurd (h.resolve_left hOpening) hEnds

theorem Reader.foldl_readLine_waiting (hMode : r.mode = .failureCapture none)
    (h : ∀ line ∈ lines.map cleanLine, isFailedStep line = false ∧ isSummaryOpening (trim line) = false) :
    lines.foldl Reader.readLine r = r := by
  induction lines with
  | nil => rfl
  | cons line lines ih =>
    obtain ⟨⟨hFailed, hOpening⟩, hLines⟩ := List.forall_mem_cons.mp h
    rw [List.foldl_cons, Reader.readLine_waiting hMode hFailed hOpening]
    exact ih hLines

theorem Reader.foldl_readLine_collecting {block : List (List Char)} (hMode : r.mode = .failureCapture (some block))
    (h : ∀ line ∈ lines.map cleanLine, endsBlock line = false) : lines.foldl Reader.readLine r =
      { r with mode := .failureCapture (some (((lines.map cleanLine).map trim).reverse ++ block)) } := by
  induction lines generalizing r block with
  | nil =>
    obtain ⟨mode, message, held⟩ := r
    subst hMode
    rfl
  | cons line lines ih =>
    obtain ⟨hLine, hLines⟩ := List.forall_mem_cons.mp h
    rw [List.foldl_cons, Reader.readLine_collecting hMode hLine, ih rfl hLines]
    simp

end Lines

theorem SectionStart.foldl_readLine {lines : List (List Char)} (h : SectionStart (lines.map cleanLine)) {r : Reader}
    (hMode : r.mode = .idle) : lines.foldl Reader.readLine r = { r with mode := .failureCapture none } := by
  generalize hClean : lines.map cleanLine = clean at h
  obtain ⟨hMarker, hBefore⟩ := h
  obtain ⟨marker, before, rfl, rfl, rfl⟩ := List.map_eq_cons_iff.mp hClean
  rw [List.foldl_cons, Reader.readLine_marker hMode hMarker]
  exact Reader.foldl_readLine_waiting rfl hBefore

theorem FailureSection.foldl_readLine {lines block : List (List Char)} (h : FailureSection (lines.map cleanLine) block)
    {r : Reader} (hMode : r.mode = .idle) :
    lines.foldl Reader.readLine r = { r with mode := .failureCapture (some (block.map trim).reverse) } := by
  generalize hClean : lines.map cleanLine = clean at h
  obtain ⟨hStart, hFailed, hBlock⟩ := h
  obtain ⟨start, rest, rfl, rfl, hRest⟩ := List.map_eq_append_iff.mp hClean
  obtain ⟨failed, block, rfl, rfl, rfl⟩ := List.map_eq_cons_iff.mp hRest
  rw [List.foldl_append, hStart.foldl_readLine hMode, List.foldl_cons, Reader.readLine_failing rfl hFailed,
    Reader.foldl_readLine_collecting rfl hBlock, List.append_nil]

/-! ## Calls that read a section -/

theorem Reader.after_append (subject : Subject) (r : Reader) (calls later : List Call) :
    r.after subject (calls ++ later) = (r.after subject calls).after subject later :=
  List.foldl_append

theorem Reader.linesFrom_append (subject : Subject) (r : Reader) (calls later : List Call) :
    linesFrom r.held (calls ++ later) = linesFrom r.held calls ++ linesFrom (r.after subject calls).held later := by
  induction calls generalizing r with
  | nil => rfl
  | cons call calls ih =>
    cases call with
    | feed chunk =>
      rw [List.cons_append, linesFrom, linesFrom, List.append_assoc]
      exact congrArg _ (ih (r.feed chunk))
    | feedLine text =>
      have hHeld : (r.feedLine text).held = r.held := Reader.held_foldl_lines r _
      have hRest := ih (r.feedLine text)
      rw [hHeld] at hRest
      rw [List.cons_append, linesFrom, linesFrom, List.append_assoc, hRest]
      rfl
    | finish =>
      have hRest := ih r.close
      rw [r.held_close] at hRest
      rw [List.cons_append, linesFrom, linesFrom, List.append_assoc, hRest]
      rfl

/-- Calls that end no transcript read their lines one after the other. -/
theorem Reader.after_feeds (subject : Subject) {calls : List Call} (h : Call.finish ∉ calls) (r : Reader) :
    r.after subject calls =
      { (linesFrom r.held calls).foldl Reader.readLine r with held := (r.after subject calls).held } := by
  induction calls generalizing r with
  | nil => rfl
  | cons call calls ih =>
    rw [List.mem_cons, not_or] at h
    cases call with
    | feed chunk =>
      have hRest := ih h.2 (r.feed chunk)
      have hFeed : r.feed chunk = { (endedLines (r.held ++ chunk.toList)).foldl Reader.readLine r with
          held := openLine (r.held ++ chunk.toList) } := rfl
      -- Reading a line does not look at what is held, so what the chunk leaves open can be put in afterwards.
      have hHeld := Reader.foldl_readLine_held ((endedLines (r.held ++ chunk.toList)).foldl Reader.readLine r)
        (openLine (r.held ++ chunk.toList)) (linesFrom (r.feed chunk).held calls)
      rw [← hFeed] at hHeld
      rw [hHeld] at hRest
      rw [linesFrom, List.foldl_append]
      exact hRest
    | feedLine text =>
      have hHeld : (r.feedLine text).held = r.held := Reader.held_foldl_lines r _
      have hRest := ih h.2 (r.feedLine text)
      rw [hHeld] at hRest
      rw [linesFrom, List.foldl_append]
      exact hRest
    | finish => exact absurd rfl h.1

theorem Reader.after_feeds_finish (subject : Subject) {calls : List Call} (h : Call.finish ∉ calls) (r : Reader) :
    r.after subject (calls ++ [.finish]) =
      Reader.settle { (linesFrom r.held (calls ++ [.finish])).foldl Reader.readLine r with held := [] } := by
  rw [Reader.after_append, Reader.linesFrom_append subject, List.foldl_append]
  have hClose : (r.after subject calls).after subject [.finish] = (r.after subject calls).close := rfl
  have hRead := Reader.foldl_readLine_held ((linesFrom r.held calls).foldl Reader.readLine r) []
    (linesFrom (r.after subject calls).held [.finish])
  have hFed := congrArg (fun s : Reader => { s with held := [] }) (r.after_feeds subject h)
  rw [hClose, Reader.close_eq_settle, ← hRead, hFed, linesFrom, linesFrom, List.append_nil]

/-- The calls read a section up to the end of its block, which ends with a line or with the output. -/
inductive ReadsBlock (held : List Char) : List Call → List (List Char) → Prop where
  | toLine {calls : List Call} {lines block : List (List Char)} {last : List Char} (hFeeds : Call.finish ∉ calls)
      (hLines : (linesFrom held calls).map cleanLine = lines ++ [last]) (hSection : FailureSection lines block)
      (hLast : endsBlock last = true) : ReadsBlock held calls block
  | toEnd {calls : List Call} {block : List (List Char)} (hFeeds : Call.finish ∉ calls)
      (hSection : FailureSection ((linesFrom held (calls ++ [.finish])).map cleanLine) block) :
      ReadsBlock held (calls ++ [.finish]) block

/-- Between sections, and as long as there is no message, the next block becomes the message, if it has any text. A
message stays whatever comes later. -/
theorem failureMessage_of_readsBlock (subject : Subject) (r : Reader) (hIdle : r.mode = .idle)
    (hNone : r.failureMessage = none) (calls : List Call)
    (block : List (List Char)) (h : ReadsBlock r.held calls block) :
    (r.after subject calls).failureMessage = textOf? block ∧
    ∀ message, textOf? block = some message → ∀ later,
      (r.after subject (calls ++ later)).failureMessage = some message := by
  have hText : r.failureMessage.or (blockMessage (some (block.map trim).reverse)) = textOf? block := by
    rw [hNone, Option.none_or, blockMessage_eq_textOf?]
  have hMessage : (r.after subject calls).failureMessage = textOf? block := by
    cases h with
    | toLine hFeeds hLines hSection hLast =>
      obtain ⟨lines, rest, hAll, rfl, hRest⟩ := List.map_eq_append_iff.mp hLines
      obtain ⟨last, rfl, rfl⟩ := List.map_eq_singleton_iff.mp hRest
      rw [r.after_feeds subject hFeeds, hAll, List.foldl_concat, hSection.foldl_readLine hIdle]
      exact (Reader.failureMessage_readLine_ending rfl hLast).trans hText
    | @toEnd calls _ hFeeds hSection =>
      rw [r.after_feeds_finish subject hFeeds, hSection.foldl_readLine hIdle]
      exact hText
  refine ⟨hMessage, fun message hSome later => ?_⟩
  rw [Reader.after_append]
  exact Reader.failureMessage_after (hMessage.trans hSome) subject later

def failureCalls : List Call :=
  [.feed "Failures:\n\n1) Scenario: Pay # pay.feature:3\n    ✖ Then it is ", .feed "paid\n        boom\n2 scenarios use",
    .feed " this step\n\n    - And it is logged\n"]

theorem failureMessage_of_failureCalls :
    Reader.mode {} = .idle ∧ Reader.failureMessage {} = none ∧
    ReadsBlock [] failureCalls ["        boom".toList, "2 scenarios use this step".toList, []] ∧
    ∀ later, (Reader.after ⟨"Pay", false⟩ {} (failureCalls ++ later)).failureMessage =
      some "boom\n2 scenarios use this step".toList := by
  have hStart : SectionStart ["Failures:".toList, [], "1) Scenario: Pay # pay.feature:3".toList] :=
    .lines (by decide +kernel) (by decide +kernel)
  have hSection : FailureSection (["Failures:".toList, [], "1) Scenario: Pay # pay.feature:3".toList] ++
      "    ✖ Then it is paid".toList :: ["        boom".toList, "2 scenarios use this step".toList, []])
      ["        boom".toList, "2 scenarios use this step".toList, []] :=
    .lines hStart (by decide +kernel) (by decide +kernel)
  have hLast : endsBlock "    - And it is logged".toList = true := by decide +kernel
  have hReads : ReadsBlock [] failureCalls ["        boom".toList, "2 scenarios use this step".toList, []] :=
    .toLine (by decide) (by decide +kernel) hSection hLast
  refine ⟨rfl, rfl, hReads, ?_⟩
  exact (failureMessage_of_readsBlock ⟨"Pay", false⟩ {} rfl rfl failureCalls _ hReads).2 _ (by decide +kernel)

end ScenarioRunner.Transcript
