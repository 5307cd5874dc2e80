import ScenarioRunner.Proofs.Transcript.OneLine
import ScenarioRunner.Proofs.Transcript.Readable

/-!
# What a reader keeps

Calls come down to lines, and each line moves the reader from one mode to another. Main statement: after any calls, what
the reader keeps stands in the lines that they have read. A summary is retained exactly when reading is over, a message
stays once it is there, and to finish twice is to finish once.
-/

namespace ScenarioRunner.Transcript

open ScenarioRunner.Text

set_option autoImplicit false

theorem eq_of_blockMessage {lines : List (List Char)} {message : List Char}
    (h : blockMessage (some lines) = some message) :
    message ≠ [] ∧ trim message = message ∧ message = trim (joinLines lines.reverse) := by
  rw [blockMessage, Option.getD_some] at h
  split at h
  · cases h
  · next hNonempty =>
    cases h
    exact ⟨hNonempty, trim_trim _, rfl⟩

/-! ## Calls as lines -/

/-- The lines that calls read, where a text is held back before the first of them. -/
def linesFrom (held : List Char) : List Call → List (List Char)
  | [] => []
  | .feed chunk :: calls => endedLines (held ++ chunk.toList) ++ linesFrom (openLine (held ++ chunk.toList)) calls
  | .feedLine text :: calls => completeLines text.toList ++ linesFrom held calls
  | .finish :: calls => (if held.isEmpty then [] else [held]) ++ linesFrom [] calls

def linesOf (calls : List Call) : List (List Char) :=
  (linesFrom [] calls).map cleanLine

/-- At the end of the output a block or summary that is still open ends. -/
def Reader.settle (r : Reader) : Reader :=
  match r.mode with
  | .failureCapture block => r.endFailure block
  | .summary scenarios steps => { r with mode := .done (joinLines (scenarios :: steps.toList)) }
  | _ => r

theorem Reader.close_eq_settle (r : Reader) :
    r.close = ((if r.held.isEmpty then [] else [r.held]).foldl Reader.readLine { r with held := [] }).settle := by
  obtain ⟨mode, message, held⟩ := r
  cases held with
  | nil => rfl
  | cons c held => rfl

theorem Reader.held_foldl_lines (r : Reader) (lines : List (List Char)) :
    (lines.foldl Reader.readLine r).held = r.held := by
  have hHeld := congrArg Reader.held (r.foldl_readLine_held r.held lines)
  exact hHeld

theorem Reader.held_settle (r : Reader) : r.settle.held = r.held := by
  obtain ⟨mode, message, held⟩ := r
  cases mode <;> rfl

theorem Reader.held_close (r : Reader) : r.close.held = [] := by
  rw [r.close_eq_settle, Reader.held_settle, Reader.held_foldl_lines]

def Reader.after (subject : Subject) (r : Reader) (calls : List Call) : Reader :=
  calls.foldl (fun r call => (r.answer subject call).1) r

/-- What holds at the start, and is kept by every line and at the end of the output, holds after any calls. -/
theorem Reader.after_induction {P : List (List Char) → Reader → Prop}
    (hHeld : ∀ read r text, P read r → P read { r with held := text })
    (hLine : ∀ read r line, P read r → P (read ++ [cleanLine line]) (r.readLine line))
    (hSettle : ∀ read r, P read r → P read r.settle) (subject : Subject) (calls : List Call) (r : Reader)
    (read : List (List Char)) (h : P read r) :
    P (read ++ (linesFrom r.held calls).map cleanLine) (r.after subject calls) := by
  have hLines : ∀ (lines read : List (List Char)) (r : Reader), P read r →
      P (read ++ lines.map cleanLine) (lines.foldl Reader.readLine r) := by
    intro lines
    induction lines with
    | nil =>
      intro read r h
      rwa [List.map_nil, List.append_nil]
    | cons line lines ih =>
      intro read r h
      have hRest := ih _ _ (hLine read r line h)
      rwa [List.append_assoc] at hRest
  induction calls generalizing r read with
  | nil => rwa [linesFrom, List.map_nil, List.append_nil]
  | cons call calls ih =>
    cases call with
    | feed chunk =>
      have hRest := ih (r.feed chunk) _ (hHeld _ _ (openLine (r.held ++ chunk.toList)) (hLines _ _ _ h))
      rwa [List.append_assoc, ← List.map_append] at hRest
    | feedLine text =>
      have hRest := ih (r.feedLine text) _ (hLines _ _ _ h)
      rwa [Reader.feedLine, Reader.held_foldl_lines, List.append_assoc, ← List.map_append] at hRest
    | finish =>
      have hClosed : P (read ++ (if r.held.isEmpty then [] else [r.held]).map cleanLine) r.close := by
        rw [r.close_eq_settle]
        exact hSettle _ _ (hLines _ _ _ (hHeld _ _ [] h))
      have hRest := ih r.close _ hClosed
      rwa [r.held_close, List.append_assoc, ← List.map_append] at hRest

/-! ## The moves of a line -/

def endsBlock (line : List Char) : Bool :=
  isSummaryOpening (trim line) || isNextStep line || isNumberedScenario line

inductive Reader.Moves (r : Reader) (line : List Char) : Mode → Prop where
  | finished {text : List Char} (hMode : r.mode = .done text) : r.Moves line (.done text)
  | leaving : r.Moves line .idle
  | marked (hMarker : isSectionMarker (trim line) = true) : r.Moves line (.failureCapture none)
  | waiting (hMode : r.mode = .failureCapture none) (hFailed : isFailedStep line = false)
      (hOpening : isSummaryOpening (trim line) = false) : r.Moves line (.failureCapture none)
  | failing (hMode : r.mode = .failureCapture none) (hFailed : isFailedStep line = true) :
      r.Moves line (.failureCapture (some []))
  | collecting {lines : List (List Char)} (hMode : r.mode = .failureCapture (some lines))
      (hEnds : endsBlock line = false) : r.Moves line (.failureCapture (some (trim line :: lines)))
  | counting (hCount : startsWithCount "scenario" (trim line) = true) (hUntimed : hasDuration (trim line) = false) :
      r.Moves line (.summary (trim line) none)
  | countingSteps {scenarios : List Char} (hMode : r.mode = .summary scenarios none)
      (hUntimed : hasDuration (trim line) = false) : r.Moves line (.summary scenarios (some (trim line)))
  | timed (hTimed : hasDuration (trim line) = true) : r.Moves line (.done (joinLines (r.pendingLines ++ [trim line])))

/-- What a line can do: it moves the mode, and it leaves the message or ends the open block. -/
structure Reader.StepsTo (r : Reader) (line : List Char) (r' : Reader) : Prop where
  moves : r.Moves line r'.mode
  message : r'.failureMessage = r.failureMessage ∨ r'.failureMessage = r.messageAtSummary

theorem Reader.stepsTo_readIdle {r r' : Reader} {line : List Char}
    (hPending : hasDuration (trim line) = true → r.pendingLines = [])
    (hMessage : r'.failureMessage = r.failureMessage ∨ r'.failureMessage = r.messageAtSummary) :
    r.StepsTo line (r'.readIdle line) := by
  simp only [Reader.readIdle]
  split_ifs with hMarker hTimed hCount
  · exact ⟨.marked hMarker, hMessage⟩
  · have hJoin : joinLines (r.pendingLines ++ [trim line]) = trim line := by simp [hPending hTimed, joinLines]
    have hMove := Reader.Moves.timed (r := r) hTimed
    rw [hJoin] at hMove
    exact ⟨hMove, hMessage⟩
  · exact ⟨.counting hCount (Bool.eq_false_iff.mpr hTimed), hMessage⟩
  · exact ⟨.leaving, hMessage⟩

theorem Reader.stepsTo_readFailure {r : Reader} {block : Option (List (List Char))}
    (hMode : r.mode = .failureCapture block) (line : List Char) : r.StepsTo line (r.readFailure block line) := by
  have hPending : r.pendingLines = [] := by rw [Reader.pendingLines, hMode]
  have hEnd : (r.endFailure block).failureMessage = r.messageAtSummary := by
    rw [Reader.messageAtSummary, hMode]
    rfl
  have hOpening : r.StepsTo line ((r.endFailure block).readIdle line) :=
    Reader.stepsTo_readIdle (fun _ => hPending) (Or.inr hEnd)
  cases block with
  | none =>
    simp only [Reader.readFailure]
    split_ifs with hSummary hFailed
    · exact hOpening
    · exact ⟨.failing hMode hFailed, Or.inl rfl⟩
    · refine ⟨?_, Or.inl rfl⟩
      rw [hMode]
      exact .waiting hMode (Bool.eq_false_iff.mpr hFailed) (Bool.eq_false_iff.mpr hSummary)
  | some lines =>
    simp only [Reader.readFailure]
    split_ifs with hSummary hEnds
    · exact hOpening
    · exact ⟨.leaving, Or.inr hEnd⟩
    · have hStays : endsBlock line = false := by
        rw [endsBlock, Bool.or_assoc, Bool.eq_false_iff.mpr hSummary, Bool.eq_false_iff.mpr hEnds, Bool.or_self]
      exact ⟨.collecting hMode hStays, Or.inl rfl⟩

theorem Reader.stepsTo_readSummary {r : Reader} {scenarios : List Char} {steps : Option (List Char)}
    (hMode : r.mode = .summary scenarios steps) (line : List Char) :
    r.StepsTo line (r.readSummary scenarios steps line) := by
  have hPending : r.pendingLines = scenarios :: steps.toList := by rw [Reader.pendingLines, hMode]
  simp only [Reader.readSummary]
  split_ifs with hTimed hSteps
  · rw [← hPending]
    exact ⟨.timed hTimed, Or.inl rfl⟩
  · cases steps with
    | none => exact ⟨.countingSteps hMode (Bool.eq_false_iff.mpr hTimed), Or.inl rfl⟩
    | some steps => simp at hSteps
  · exact Reader.stepsTo_readIdle (fun h => absurd h hTimed) (Or.inl rfl)

theorem Reader.stepsTo_readLine (r : Reader) (line : List Char) : r.StepsTo (cleanLine line) (r.readLine line) := by
  rw [Reader.readLine]
  cases hMode : r.mode with
  | idle => exact Reader.stepsTo_readIdle (fun _ => by rw [Reader.pendingLines, hMode]) (Or.inl rfl)
  | failureCapture block => exact Reader.stepsTo_readFailure hMode (cleanLine line)
  | summary scenarios steps => exact Reader.stepsTo_readSummary hMode (cleanLine line)
  | done text =>
    refine ⟨?_, Or.inl rfl⟩
    rw [hMode]
    exact .finished hMode

/-! ## What is kept stands in the lines -/

/-- A summary that waits for its duration: one or two lines, the first with a count of scenarios. -/
structure PendingSummary (lines : List (List Char)) : Prop where
  length : lines.length = 1 ∨ lines.length = 2
  counts : ∃ first ∈ lines.head?, startsWithCount "scenario" first = true
  untimed : ∀ line ∈ lines, hasDuration line = false

/-- A summary that has its duration, or that waited for it when the output was over. -/
inductive EndedSummary : List (List Char) → Prop where
  | timed {pending : List (List Char)} {last : List Char} (h : pending = [] ∨ PendingSummary pending)
      (hLast : hasDuration last = true) : EndedSummary (pending ++ [last])
  | cutOff {pending : List (List Char)} (h : PendingSummary pending) : EndedSummary pending

/-- The lines up to here end with those of a failing step, which stands behind the marker of a section. -/
inductive FailureLines : List (List Char) → List (List Char) → Prop where
  | after {before lines : List (List Char)} {failed : List Char}
      (hMarker : ∃ marker ∈ before, isSectionMarker (trim marker) = true) (hFailed : isFailedStep failed = true) :
      FailureLines (before ++ failed :: lines) (lines.map trim)

def Mode.StandsIn (read : List (List Char)) : Mode → Prop
  | .idle => True
  | .failureCapture none => ∃ marker ∈ read, isSectionMarker (trim marker) = true
  | .failureCapture (some lines) => FailureLines read lines.reverse
  | .summary scenarios steps =>
    PendingSummary (scenarios :: steps.toList) ∧ scenarios :: steps.toList <:+ read.map trim
  | .done text => ∃ lines, EndedSummary lines ∧ text = joinLines lines ∧ lines <:+: read.map trim

/-- A message is the trimmed text of the lines of a failing step. -/
structure MessageStandsIn (read : List (List Char)) (message : List Char) : Prop where
  ne_nil : message ≠ []
  trimmed : trim message = message
  lines : ∃ earlier lines, earlier <+: read ∧ FailureLines earlier lines ∧ message = trim (joinLines lines)

structure Reader.StandsIn (read : List (List Char)) (r : Reader) : Prop where
  mode : r.mode.StandsIn read
  message : ∀ m, r.failureMessage = some m → MessageStandsIn read m

theorem FailureLines.concat {read lines : List (List Char)} (h : FailureLines read lines) (line : List Char) :
    FailureLines (read ++ [line]) (lines ++ [trim line]) := by
  cases h with
  | @after before later failed hMarker hFailed =>
    have hLines : FailureLines (before ++ failed :: (later ++ [line])) ((later ++ [line]).map trim) :=
      .after hMarker hFailed
    rw [List.map_append] at hLines
    rwa [List.append_assoc]

theorem MessageStandsIn.concat {read : List (List Char)} {message : List Char} (h : MessageStandsIn read message)
    (line : List Char) : MessageStandsIn (read ++ [line]) message := by
  obtain ⟨hNonempty, hTrimmed, earlier, lines, hEarlier, hLines, hText⟩ := h
  exact ⟨hNonempty, hTrimmed, earlier, lines, hEarlier.trans (List.prefix_append read [line]), hLines, hText⟩

theorem suffix_map_trim_concat {lines read : List (List Char)} (h : lines <:+ read.map trim) (line : List Char) :
    lines ++ [trim line] <:+ (read ++ [line]).map trim := by
  obtain ⟨before, hRead⟩ := h
  exact ⟨before, by rw [List.map_append, ← hRead, List.append_assoc]; rfl⟩

theorem Mode.StandsIn.pendingLines {read : List (List Char)} {r : Reader} (h : r.mode.StandsIn read) :
    r.pendingLines <:+ read.map trim ∧ (r.pendingLines = [] ∨ PendingSummary r.pendingLines) := by
  obtain ⟨mode, message, held⟩ := r
  cases mode with
  | summary scenarios steps => exact ⟨h.2, Or.inr h.1⟩
  | idle => exact ⟨List.nil_suffix, Or.inl rfl⟩
  | failureCapture block => exact ⟨List.nil_suffix, Or.inl rfl⟩
  | done text => exact ⟨List.nil_suffix, Or.inl rfl⟩

/-- Every move keeps what the mode holds in the lines, the new one included. -/
theorem Reader.Moves.standsIn {r : Reader} {line : List Char} {m : Mode} (hMove : r.Moves line m)
    {read : List (List Char)} (h : r.mode.StandsIn read) : m.StandsIn (read ++ [line]) := by
  have hNew : [trim line] <:+ (read ++ [line]).map trim := by
    have hLast := suffix_map_trim_concat (List.nil_suffix (l := read.map trim)) line
    rwa [List.nil_append] at hLast
  cases hMove with
  | finished hMode =>
    rw [hMode] at h
    obtain ⟨lines, hEnded, hText, hInfix⟩ := h
    refine ⟨lines, hEnded, hText, hInfix.trans ?_⟩
    rw [List.map_append]
    exact (List.prefix_append _ _).isInfix
  | leaving => trivial
  | marked hMarker => exact ⟨line, by simp, hMarker⟩
  | waiting hMode _ _ =>
    rw [hMode] at h
    obtain ⟨marker, hMem, hMarker⟩ := h
    exact ⟨marker, List.mem_append_left _ hMem, hMarker⟩
  | failing hMode hFailed =>
    rw [hMode] at h
    exact FailureLines.after h hFailed
  | @collecting lines hMode _ =>
    rw [hMode] at h
    have hLines := h.concat line
    rwa [← List.reverse_cons] at hLines
  | counting hCount hUntimed =>
    refine ⟨⟨Or.inl rfl, ⟨trim line, rfl, hCount⟩, ?_⟩, hNew⟩
    intro other hOther
    obtain rfl := List.mem_singleton.mp hOther
    exact hUntimed
  | @countingSteps scenarios hMode hUntimed =>
    rw [hMode] at h
    obtain ⟨⟨-, hCounts, hPending⟩, hSuffix⟩ := h
    refine ⟨⟨Or.inr rfl, hCounts, ?_⟩, suffix_map_trim_concat hSuffix line⟩
    intro other hOther
    rcases List.mem_cons.mp hOther with rfl | hOther
    · exact hPending _ List.mem_cons_self
    · obtain rfl := List.mem_singleton.mp hOther
      exact hUntimed
  | timed hTimed =>
    obtain ⟨hSuffix, hPending⟩ := h.pendingLines
    exact ⟨_, .timed hPending hTimed, rfl, (suffix_map_trim_concat hSuffix line).isInfix⟩

theorem Reader.StandsIn.messageAtSummary {read : List (List Char)} {r : Reader} (h : r.StandsIn read) :
    ∀ m, r.messageAtSummary = some m → MessageStandsIn read m := by
  intro m hm
  rw [Reader.messageAtSummary] at hm
  cases hMode : r.mode with
  | failureCapture block =>
    simp only [hMode, Option.or_eq_some_iff] at hm
    rcases hm with hm | ⟨-, hm⟩
    · exact h.message m hm
    have hLines := h.mode
    rw [hMode] at hLines
    cases block with
    | none => cases hm
    | some lines =>
      obtain ⟨hNonempty, hTrimmed, hText⟩ := eq_of_blockMessage hm
      exact ⟨hNonempty, hTrimmed, read, _, List.prefix_rfl, hLines, hText⟩
  | idle =>
    rw [hMode] at hm
    exact h.message m hm
  | summary scenarios steps =>
    rw [hMode] at hm
    exact h.message m hm
  | done text =>
    rw [hMode] at hm
    exact h.message m hm

theorem Reader.StandsIn.readLine {read : List (List Char)} {r : Reader} (h : r.StandsIn read) (line : List Char) :
    (r.readLine line).StandsIn (read ++ [cleanLine line]) := by
  obtain ⟨hMoves, hMessage⟩ := r.stepsTo_readLine line
  refine ⟨hMoves.standsIn h.mode, fun m hm => MessageStandsIn.concat ?_ _⟩
  rcases hMessage with hSame | hEnded
  · exact h.message m (hSame.symm.trans hm)
  · exact h.messageAtSummary m (hEnded.symm.trans hm)

theorem Reader.StandsIn.settle {read : List (List Char)} {r : Reader} (h : r.StandsIn read) :
    r.settle.StandsIn read := by
  have hEnded := h.messageAtSummary
  obtain ⟨mode, message, held⟩ := r
  cases mode with
  | idle => exact h
  | failureCapture block => exact ⟨trivial, hEnded⟩
  | summary scenarios steps =>
    refine ⟨⟨_, .cutOff h.mode.1, rfl, h.mode.2.isInfix⟩, h.message⟩
  | done text => exact h

theorem Reader.standsIn_afterCalls (subject : Subject) (calls : List Call) :
    (Reader.afterCalls subject calls).StandsIn (linesOf calls) := by
  have hStart : Reader.StandsIn [] {} := ⟨trivial, by simp⟩
  exact Reader.after_induction (P := fun read r => r.StandsIn read) (fun read r text h => ⟨h.mode, h.message⟩)
    (fun read r line h => h.readLine line) (fun read r h => h.settle) subject calls {} [] hStart

/-! ## What further calls do not change -/

theorem Reader.messageAtSummary_eq_some {r : Reader} {message : List Char} (h : r.failureMessage = some message) :
    r.messageAtSummary = some message := by
  obtain ⟨mode, _, held⟩ := r
  subst h
  cases mode <;> rfl

theorem Reader.failureMessage_after {r : Reader} {message : List Char} (h : r.failureMessage = some message)
    (subject : Subject) (calls : List Call) : (r.after subject calls).failureMessage = some message := by
  refine Reader.after_induction (P := fun _ r => r.failureMessage = some message) (fun _ _ _ h => h) ?_ ?_ subject calls
    r [] h
  · intro _ r line h
    rcases (r.stepsTo_readLine line).message with hSame | hEnded
    · exact hSame.trans h
    · exact hEnded.trans (Reader.messageAtSummary_eq_some h)
  · intro _ r h
    have hEnded := Reader.messageAtSummary_eq_some h
    obtain ⟨mode, _, held⟩ := r
    cases mode with
    | failureCapture block => exact hEnded
    | idle => exact h
    | summary scenarios steps => exact h
    | done text => exact h

theorem Reader.after_of_done {r : Reader} {text : List Char} (h : r.mode = .done text) (subject : Subject)
    (calls : List Call) :
    (r.after subject calls).mode = .done text ∧ (r.after subject calls).failureMessage = r.failureMessage := by
  refine Reader.after_induction (P := fun _ s => s.mode = .done text ∧ s.failureMessage = r.failureMessage)
    (fun _ _ _ h => h) ?_ ?_ subject calls r [] ⟨h, rfl⟩
  · intro _ s line hs
    rwa [Reader.readLine, hs.1]
  · intro _ s hs
    rwa [Reader.settle, hs.1]

theorem Reader.verdict_congr {r s : Reader} (hMode : r.mode = s.mode) (hMessage : r.failureMessage = s.failureMessage)
    (subject : Subject) : r.verdict subject = s.verdict subject := by
  rw [Reader.verdict, Reader.verdict, hMode, hMessage]

theorem Reader.settle_settle (r : Reader) : r.settle.settle = r.settle := by
  obtain ⟨mode, message, held⟩ := r
  cases mode <;> rfl

theorem Reader.close_close (r : Reader) : r.close.close = r.close := by
  have hHeld := r.held_close
  rw [r.close.close_eq_settle, hHeld, List.isEmpty_nil, if_pos rfl, List.foldl_nil, ← hHeld]
  rw [r.close_eq_settle, Reader.settle_settle]

theorem Reader.finish_after_of_done {r : Reader} {text : List Char} (h : r.mode = .done text) (subject : Subject)
    (calls : List Call) : ((r.after subject calls).finish subject).2 = (r.finish subject).2 := by
  obtain ⟨hMode, hMessage⟩ := Reader.after_of_done h subject calls
  obtain ⟨hMode', hMessage'⟩ := Reader.after_of_done hMode subject [.finish]
  obtain ⟨hMode'', hMessage''⟩ := Reader.after_of_done h subject [.finish]
  exact Reader.verdict_congr (hMode'.trans hMode''.symm) (hMessage'.trans (hMessage.trans hMessage''.symm)) subject

/-! ## Phases -/

inductive Phase where
  | idle
  | failureCapture
  | summary
  | done
deriving DecidableEq

def Reader.phase (r : Reader) : Phase :=
  match r.mode with
  | .idle => .idle
  | .failureCapture _ => .failureCapture
  | .summary _ _ => .summary
  | .done _ => .done

def Reader.retained? (r : Reader) : Option (List Char) :=
  match r.mode with
  | .done text => some text
  | _ => none

def Reader.failureLines? (r : Reader) : Option (List (List Char)) :=
  match r.mode with
  | .failureCapture (some lines) => some lines.reverse
  | _ => none

theorem Reader.phase_eq_done_iff (r : Reader) : r.phase = .done ↔ ∃ text, r.mode = .done text := by
  obtain ⟨mode, message, held⟩ := r
  cases mode <;> simp [Reader.phase]

/-- In every other phase a count of scenarios starts a summary, and two different counts start different ones. -/
theorem Reader.phase_eq_done_iff_readLine (r : Reader) : r.phase = .done ↔ ∀ line, r.readLine line = r := by
  rw [Reader.phase_eq_done_iff]
  constructor
  · rintro ⟨text, hMode⟩ line
    rw [Reader.readLine, hMode]
  · intro hOver
    by_contra hNot
    have hOpen : ∀ text, r.mode ≠ .done text := fun text hMode => hNot ⟨text, hMode⟩
    have hPhrase : CountPhrase.WellFormed ⟨['0'], some []⟩ :=
      ⟨by simp, List.all_eq_true.mp (by decide), by simp⟩
    have hStarts : ∀ plural, r.mode = .summary (CountPhrase.text "scenario" plural ⟨['0'], some []⟩) none := by
      intro plural
      have hLine : PhraseLine "scenario" ⟨['0'], some []⟩ (CountPhrase.text "scenario" plural ⟨['0'], some []⟩) :=
        ⟨hPhrase, plural, rfl, fun hNone => absurd hNone (Option.some_ne_none _)⟩
      rw [← hOver (CountPhrase.text "scenario" plural ⟨['0'], some []⟩), r.readLine_scenarioLine hOpen hLine]
    have hTexts := (hStarts true).symm.trans (hStarts false)
    rw [Mode.summary.injEq] at hTexts
    exact absurd hTexts.1 (by decide)

/-- What holds of a reader that has read some lines, and what further calls leave as it is. When a summary is retained,
how many lines wait and in which phase lines are collected follow from the type of modes; what these lines are, and that
no call changes what is settled, is proved of the calls. -/
structure Reader.Invariants (subject : Subject) (read : List (List Char)) (r : Reader) : Prop where
  done_iff_retained : r.phase = .done ↔ r.retained?.isSome = true
  done_iff_over : r.phase = .done ↔ ∀ line, r.readLine line = r
  retained : ∀ text, r.retained? = some text →
    ∃ lines, EndedSummary lines ∧ text = joinLines lines ∧ lines <:+: read.map trim
  pending : r.phase = .summary → PendingSummary r.pendingLines ∧ r.pendingLines <:+ read.map trim
  collecting : ∀ lines, r.failureLines? = some lines → r.phase = .failureCapture ∧ FailureLines read lines
  message : ∀ m, r.failureMessage = some m →
    MessageStandsIn read m ∧ ∀ calls, (r.after subject calls).failureMessage = some m
  first_wins : r.phase = .done → ∀ calls, (r.after subject calls).mode = r.mode ∧
    (r.after subject calls).failureMessage = r.failureMessage ∧
    ((r.after subject calls).finish subject).2 = (r.finish subject).2
  finish_twice : (r.finish subject).1.finish subject = r.finish subject

theorem invariants_afterCalls (subject : Subject) (calls : List Call) :
    (Reader.afterCalls subject calls).Invariants subject (linesOf calls) := by
  obtain ⟨hMode, hMessage⟩ := Reader.standsIn_afterCalls subject calls
  generalize Reader.afterCalls subject calls = r at hMode hMessage
  constructor
  · obtain ⟨mode, message, held⟩ := r
    cases mode <;> simp [Reader.phase, Reader.retained?]
  · exact r.phase_eq_done_iff_readLine
  · intro text hText
    obtain ⟨mode, message, held⟩ := r
    cases mode with
    | done summary =>
      cases hText
      exact hMode
    | _ => cases hText
  · intro hPhase
    obtain ⟨mode, message, held⟩ := r
    cases mode with
    | summary scenarios steps => exact hMode
    | _ => cases hPhase
  · intro lines hLines
    obtain ⟨mode, message, held⟩ := r
    cases mode with
    | failureCapture block =>
      cases block with
      | none => cases hLines
      | some block =>
        cases hLines
        exact ⟨rfl, hMode⟩
    | _ => cases hLines
  · intro m hm
    exact ⟨hMessage m hm, Reader.failureMessage_after hm subject⟩
  · intro hDone later
    obtain ⟨text, hText⟩ := r.phase_eq_done_iff.mp hDone
    obtain ⟨hMode', hMessage'⟩ := Reader.after_of_done hText subject later
    exact ⟨hMode'.trans hText.symm, hMessage', Reader.finish_after_of_done hText subject later⟩
  · have hClosed := r.close_close
    rw [Reader.finish, Reader.finish, hClosed]

end ScenarioRunner.Transcript
