import Mathlib.Data.List.Basic
import ScenarioRunner.Proofs.Text.Lines
import ScenarioRunner.Transcript.Summary

/-!
# Output in chunks

Reading a line never looks at what is held back, so lines that chunks complete are read as if all output had been there
at once. Main statement: a transcript that arrives in chunks, however it is cut, has the verdict of its lines.
-/

namespace ScenarioRunner.Transcript

open ScenarioRunner.Text

set_option autoImplicit false

/-! ## What is held back does not matter to a line -/

theorem Reader.readIdle_held (r : Reader) (text line : List Char) :
    { r with held := text }.readIdle line = { r.readIdle line with held := text } := by
  simp only [Reader.readIdle]
  split_ifs <;> rfl

theorem Reader.readFailure_held (r : Reader) (text : List Char) (block : Option (List (List Char)))
    (line : List Char) :
    { r with held := text }.readFailure block line = { r.readFailure block line with held := text } := by
  have hSummary := (r.endFailure block).readIdle_held text line
  cases block with
  | none =>
    simp only [Reader.readFailure]
    split_ifs
    · exact hSummary
    · rfl
    · rfl
  | some lines =>
    simp only [Reader.readFailure]
    split_ifs
    · exact hSummary
    · rfl
    · rfl

theorem Reader.readSummary_held (r : Reader) (text scenarios : List Char) (steps : Option (List Char))
    (line : List Char) :
    { r with held := text }.readSummary scenarios steps line =
      { r.readSummary scenarios steps line with held := text } := by
  simp only [Reader.readSummary]
  split_ifs
  · rfl
  · rfl
  · exact Reader.readIdle_held r text line

theorem Reader.readLine_held (r : Reader) (text line : List Char) :
    { r with held := text }.readLine line = { r.readLine line with held := text } := by
  obtain ⟨mode, message, held⟩ := r
  cases mode with
  | idle => exact Reader.readIdle_held ⟨.idle, message, held⟩ text (cleanLine line)
  | failureCapture block =>
    exact Reader.readFailure_held ⟨.failureCapture block, message, held⟩ text block (cleanLine line)
  | summary scenarios steps =>
    exact Reader.readSummary_held ⟨.summary scenarios steps, message, held⟩ text scenarios steps (cleanLine line)
  | done summary => rfl

theorem Reader.foldl_readLine_held (r : Reader) (text : List Char) (lines : List (List Char)) :
    lines.foldl Reader.readLine { r with held := text } = { lines.foldl Reader.readLine r with held := text } := by
  induction lines generalizing r with
  | nil => rfl
  | cons line lines ih => rw [List.foldl_cons, List.foldl_cons, r.readLine_held text line, ih]

/-! ## Chunks -/

/-- Two chunks are read like one, from any state on. -/
theorem Reader.feed_feed (r : Reader) (a b : String) : (r.feed a).feed b = r.feed (a ++ b) := by
  simp only [Reader.feed, String.toList_append, ← List.append_assoc]
  rw [endedLines_append (r.held ++ a.toList), openLine_append (r.held ++ a.toList), List.foldl_append,
    Reader.foldl_readLine_held]

theorem Reader.foldl_feed_cons (r : Reader) (first : String) (chunks : List String) :
    (first :: chunks).foldl Reader.feed r = r.feed (String.join (first :: chunks)) := by
  induction chunks generalizing first with
  | nil => simp
  | cons second chunks ih =>
    rw [List.foldl_cons, List.foldl_cons, r.feed_feed first second, ← List.foldl_cons, ih]
    simp [String.append_assoc]

theorem Reader.foldl_feed_fresh (chunks : List String) :
    chunks.foldl Reader.feed {} = ({} : Reader).feed (String.join chunks) := by
  cases chunks with
  | nil => rfl
  | cons first chunks => exact Reader.foldl_feed_cons {} first chunks

/-! ## Complete lines -/

theorem completeLines_of_notMem {s : List Char} (h : '\n' ∉ s) : completeLines s = [s] := by
  rw [completeLines, pieces_of_notMem h]
  rfl

theorem completeLines_eq (s : List Char) :
    completeLines s =
      if openLine s = [] ∧ endedLines s ≠ [] then endedLines s else endedLines s ++ [openLine s] := by
  rw [completeLines, ← endedLines_append_openLine s]
  cases endedLines s with
  | nil => simp
  | cons first lines =>
    have hLast : (first :: (lines ++ [openLine s])).getLast? = some (openLine s) := by
      rw [← List.cons_append, List.getLast?_concat]
    have hInit : (first :: (lines ++ [openLine s])).dropLast = first :: lines := by
      rw [← List.cons_append, List.dropLast_concat]
    simp [hLast, hInit]

theorem Reader.feedLine_of_notMem (r : Reader) {line : String} (h : '\n' ∉ line.toList) :
    r.feedLine line = r.readLine line.toList := by
  rw [Reader.feedLine, completeLines_of_notMem h]
  rfl

theorem Reader.foldl_feedLine_of_notMem (r : Reader) {lines : List String}
    (h : ∀ line ∈ lines, '\n' ∉ line.toList) :
    lines.foldl Reader.feedLine r = (lines.map String.toList).foldl Reader.readLine r := by
  induction lines generalizing r with
  | nil => rfl
  | cons line lines ih =>
    rw [List.foldl_cons, r.feedLine_of_notMem (h line List.mem_cons_self),
      ih _ fun l hl => h l (List.mem_cons_of_mem _ hl)]
    rfl

theorem Reader.held_foldl_readLine (lines : List (List Char)) :
    { lines.foldl Reader.readLine {} with held := [] } = lines.foldl Reader.readLine {} :=
  (Reader.foldl_readLine_held {} [] lines).symm

/-- At the end of the output, what is held back is read as a last line. -/
theorem Reader.close_held (r : Reader) (text : List Char) (h : text ≠ []) :
    { r with held := text }.close = { r.readLine text with held := [] }.close := by
  have hRead := r.readLine_held [] text
  cases text with
  | nil => exact absurd rfl h
  | cons c text =>
    simp only [Reader.close, List.isEmpty_cons, Bool.false_eq_true, if_false, List.isEmpty_nil, if_true, hRead]

theorem Reader.readLine_fresh_nil : ({} : Reader).readLine [] = {} := by
  have hClean : cleanLine [] = [] := by simp [cleanLine, stripCodes, removeCodes, dropTrailing]
  have hDuration : hasDuration [] = false := by simp [hasDuration, Duration.find?]
  simp only [Reader.readLine, hClean, Reader.readIdle, show trim [] = [] from rfl, hDuration]
  rfl

theorem Reader.close_feed_fresh (text : String) :
    (({} : Reader).feed text).close = (({} : Reader).feedLine text).close := by
  have hHeld := Reader.held_foldl_readLine (endedLines text.toList)
  rw [Reader.feedLine, completeLines_eq]
  simp only [Reader.feed, List.nil_append]
  by_cases hOpen : openLine text.toList = []
  · rw [hOpen, hHeld]
    split_ifs with hEnded
    · rfl
    · -- Without any line end the text is empty, and an empty line changes nothing at the start.
      have hNone : endedLines text.toList = [] := by simpa using hEnded
      rw [hNone, List.nil_append, List.foldl_cons, Reader.readLine_fresh_nil]
  · rw [if_neg fun h => hOpen h.1, Reader.close_held _ _ hOpen, ← Reader.readLine_held, hHeld, List.foldl_concat]

theorem Reader.feed_lines {lines : List String} (h : ∀ line ∈ lines, '\n' ∉ line.toList) :
    ({} : Reader).feed (String.join (lines.map (· ++ "\n"))) = lines.foldl Reader.feedLine {} := by
  have hText : (String.join (lines.map (· ++ "\n"))).toList = (lines.map String.toList).flatMap (· ++ ['\n']) := by
    simp [String.toList_join, List.flatMap_map]
  obtain ⟨hEnded, hOpen⟩ := parts_of_lines (lines.map String.toList) (by simpa using h)
  rw [Reader.foldl_feedLine_of_notMem {} h, ← Reader.held_foldl_readLine]
  simp only [Reader.feed, List.nil_append, hText, hEnded, hOpen]

/-- However output is cut into chunks, what is read from it stays the same: in every state two chunks are read like one,
chunks of whole lines have the verdict of the lines, and chunks of any text have the verdict of the text. -/
theorem verdict_independent_of_chunks :
    (∀ (r : Reader) (a b : String), (r.feed a).feed b = r.feed (a ++ b)) ∧
    (∀ (subject : Subject) (lines chunks : List String), (∀ line ∈ lines, '\n' ∉ line.toList) →
      String.join chunks = String.join (lines.map (· ++ "\n")) →
      ((chunks.foldl Reader.feed {}).finish subject).2 = interpret lines subject) ∧
    ∀ (subject : Subject) (chunks : List String),
      ((chunks.foldl Reader.feed {}).finish subject).2 = interpret [String.join chunks] subject := by
  refine ⟨Reader.feed_feed, ?_, ?_⟩
  · intro subject lines chunks hLines hJoin
    rw [Reader.foldl_feed_fresh, hJoin, Reader.feed_lines hLines, interpret]
  · intro subject chunks
    rw [Reader.foldl_feed_fresh]
    simp only [interpret, Reader.finish, List.foldl_cons, List.foldl_nil, Reader.close_feed_fresh]

/-- A summary that is cut inside a word and inside a number. -/
theorem verdict_of_cut_summary :
    (∀ line ∈ ["1 scenario (1 passed)", "12 steps (12 passed)"], '\n' ∉ line.toList) ∧
    ((["1 scen", "ario (1 passed)\n1", "", "2 steps (12 passed)\n"].foldl Reader.feed {}).finish ⟨"Login", false⟩).2 =
      interpret ["1 scenario (1 passed)", "12 steps (12 passed)"] ⟨"Login", false⟩ := by
  have hLines : ∀ line ∈ ["1 scenario (1 passed)", "12 steps (12 passed)"], '\n' ∉ line.toList := by decide
  exact ⟨hLines, verdict_independent_of_chunks.2.1 _ _ _ hLines (by decide)⟩

end ScenarioRunner.Transcript
