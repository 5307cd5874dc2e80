import ScenarioRunner.Proofs.Transcript.Chunks
import ScenarioRunner.Proofs.Transcript.Outcome
import ScenarioRunner.Proofs.Transcript.SummaryLine

/-!
# Summaries of three lines

A well-formed summary is read from every state that has none yet. Main statement: its numbers and its outcome are in the
verdict, whatever the reader was in the middle of, in whatever order the entries stand, and whatever follows.
-/

namespace ScenarioRunner.Transcript

open ScenarioRunner.Text

set_option autoImplicit false

/-- What a summary of three lines says: the scenarios, the steps, and how long the run and its steps took. -/
structure SummaryBlock where
  scenarios : List Share
  steps : List Share
  run : Duration
  stepTime : Duration

/-- Every number can be read, and the minutes of the run fit a double. -/
structure SummaryBlock.WellFormed (b : SummaryBlock) : Prop where
  scenarios : ∀ s ∈ b.scenarios, s.WellFormed
  steps : ∀ s ∈ b.steps, s.WellFormed
  scenarios_lt : total b.scenarios < Nat.pow 10 Decimal.numeralLimit
  steps_lt : total b.steps < Nat.pow 10 Decimal.numeralLimit
  run : b.run.WellFormed
  stepTime : b.stepTime.WellFormed
  minutes_length : b.run.minutes.length ≤ Decimal.numeralLimit
  minutes_lt : numeralValue b.run.minutes * 60 < Decimal.doubleBound

inductive SummaryBlock.Written (b : SummaryBlock) : List (List Char) → Prop where
  | lines {scenarios steps : List Share} {first second : List Char} (hScenarios : scenarios.Perm b.scenarios)
      (hSteps : steps.Perm b.steps) (hFirst : CountLine "scenario" scenarios first)
      (hSecond : CountLine "step" steps second) : b.Written [first, second, durationText b.run b.stepTime]

/-- The message that is kept once a summary has started: an open block ends before it. -/
def Reader.messageAtSummary (r : Reader) : Option (List Char) :=
  match r.mode with
  | .failureCapture block => r.failureMessage.or (blockMessage block)
  | _ => r.failureMessage

/-! ## Reading the lines -/

theorem isLowerLetter_scenario : ∀ c ∈ "scenario".toList, isLowerLetter c = true :=
  List.all_eq_true.mp (by decide)

theorem isLowerLetter_step : ∀ c ∈ "step".toList, isLowerLetter c = true :=
  List.all_eq_true.mp (by decide)

theorem hasDuration_eq_false {line : List Char} (h : ':' ∉ line) : hasDuration line = false := by
  rw [hasDuration, Duration.find?_eq_none h]
  rfl

theorem isSectionMarker_eq_false {line : List Char} (h : ':' ∉ line) : isSectionMarker line = false := by
  rw [isSectionMarker, Bool.or_eq_false_iff, beq_eq_false_iff_ne, beq_eq_false_iff_ne]
  constructor
  · rintro rfl
    exact h (by decide)
  · rintro rfl
    exact h (by decide)

theorem PhraseLine.read?_alone {noun : String} {p : CountPhrase} {line : List Char} (h : PhraseLine noun p line) :
    CountPhrase.read? noun line = some (p, []) ∧
      (p.breakdown = none → line = CountPhrase.text noun true ⟨['0'], none⟩) := by
  obtain ⟨hPhrase, plural, rfl, hBare⟩ := h
  have hRead : CountPhrase.read? noun (CountPhrase.text noun plural p ++ []) = some (p, []) :=
    CountPhrase.read?_text hPhrase plural fun _ => endsPhrase_nil
  rw [List.append_nil] at hRead
  refine ⟨hRead, fun hNone => ?_⟩
  obtain ⟨rfl, hNumeral⟩ := hBare hNone
  obtain ⟨numeral, breakdown⟩ := p
  obtain rfl : numeral = ['0'] := hNumeral
  obtain rfl : breakdown = none := hNone
  rfl

theorem PhraseLine.startsWithCount {noun : String} {p : CountPhrase} {line : List Char} (h : PhraseLine noun p line) :
    startsWithCount noun line = true := by
  rw [Transcript.startsWithCount, h.read?_alone.1]
  rfl

theorem PhraseLine.isSummaryOpening {p : CountPhrase} {line : List Char} (h : PhraseLine "scenario" p line) :
    isSummaryOpening line = true := by
  obtain ⟨hRead, hBare⟩ := h.read?_alone
  rw [Transcript.isSummaryOpening, hRead]
  cases hBreakdown : p.breakdown with
  | none =>
    have hText : (CountPhrase.text "scenario" true ⟨['0'], none⟩ == "0 scenarios".toList) = true := by decide
    simp only [hBare hBreakdown, hText, Bool.or_true]
  | some entries => simp only [hBreakdown, Option.isSome_some, Bool.true_or]

theorem Reader.readIdle_scenarioLine (r : Reader) {p : CountPhrase} {line : List Char}
    (h : PhraseLine "scenario" p line) : r.readIdle line = { r with mode := .summary line none } := by
  obtain ⟨hPlain, hColon⟩ := h.plain isLowerLetter_scenario
  simp only [Reader.readIdle, hPlain.trim_eq, isSectionMarker_eq_false hColon, hasDuration_eq_false hColon,
    h.startsWithCount, Bool.false_eq_true, if_false, if_true]

theorem not_startsWithCount_step {p : CountPhrase} {line : List Char} (h : PhraseLine "scenario" p line) :
    Transcript.startsWithCount "step" line = false := by
  obtain ⟨hPhrase, plural, rfl, -⟩ := h
  obtain ⟨rest, hText⟩ : ∃ rest, CountPhrase.text "scenario" plural p = p.numeral ++ ([' '] ++ 's' :: 'c' :: rest) :=
    ⟨"enario".toList ++ (if plural then ['s'] else []) ++ breakdownText p.breakdown, by simp [CountPhrase.text]⟩
  have hNumeral : run? isDigit (p.numeral ++ ([' '] ++ 's' :: 'c' :: rest)) =
      some (p.numeral, [' '] ++ 's' :: 'c' :: rest) :=
    run?_digits hPhrase.numeral_ne_nil hPhrase.isDigit_numeral (by decide) _
  rw [Transcript.startsWithCount, CountPhrase.read?, hText, hNumeral]
  simp only [Option.bind_eq_bind, Option.bind_some, after?_append]
  rfl

theorem Reader.readLine_scenarioLine (r : Reader) (hOpen : ∀ text, r.mode ≠ .done text) {p : CountPhrase}
    {line : List Char} (h : PhraseLine "scenario" p line) :
    r.readLine line = ⟨.summary line none, r.messageAtSummary, r.held⟩ := by
  obtain ⟨hPlain, hColon⟩ := h.plain isLowerLetter_scenario
  obtain ⟨mode, message, held⟩ := r
  cases mode with
  | idle =>
    simp only [Reader.readLine, hPlain.cleanLine_eq, Reader.readIdle_scenarioLine _ h]
    rfl
  | failureCapture block =>
    simp only [Reader.readLine, hPlain.cleanLine_eq, Reader.readFailure, hPlain.trim_eq, h.isSummaryOpening, if_true,
      Reader.readIdle_scenarioLine _ h]
    rfl
  | summary scenarios steps =>
    simp only [Reader.readLine, hPlain.cleanLine_eq, Reader.readSummary, hPlain.trim_eq, hasDuration_eq_false hColon,
      not_startsWithCount_step h, Bool.false_eq_true, if_false, Bool.and_false, Reader.readIdle_scenarioLine _ h]
    rfl
  | done text => exact absurd rfl (hOpen text)

theorem Reader.readLine_stepLine {p : CountPhrase} {line : List Char} (h : PhraseLine "step" p line)
    (scenarios held : List Char) (message : Option (List Char)) :
    Reader.readLine ⟨.summary scenarios none, message, held⟩ line = ⟨.summary scenarios (some line), message, held⟩ := by
  obtain ⟨hPlain, hColon⟩ := h.plain isLowerLetter_step
  simp only [Reader.readLine, hPlain.cleanLine_eq, Reader.readSummary, hPlain.trim_eq, hasDuration_eq_false hColon,
    h.startsWithCount, Option.isNone_none, Bool.and_true, Bool.false_eq_true, if_false, if_true]

theorem hasDuration_durationText {run steps : Duration} (hRun : run.WellFormed) (hSteps : steps.WellFormed) :
    hasDuration (durationText run steps) = true := by
  have hRead := Duration.read?_durationText hRun hSteps []
  rw [List.append_nil] at hRead
  rw [hasDuration, Duration.find?_of_read? hRead]
  rfl

theorem Reader.readLine_durationLine {run steps : Duration} (hRun : run.WellFormed) (hSteps : steps.WellFormed)
    (first second held : List Char) (message : Option (List Char)) :
    Reader.readLine ⟨.summary first (some second), message, held⟩ (durationText run steps) =
      ⟨.done (joinLines [first, second, durationText run steps]), message, held⟩ := by
  have hPlain := plainLine_durationText hRun hSteps
  simp only [Reader.readLine, hPlain.cleanLine_eq, Reader.readSummary, hPlain.trim_eq,
    hasDuration_durationText hRun hSteps, if_true]
  rfl

theorem Reader.foldl_feedLine_done (lines : List String) (text held : List Char) (message : Option (List Char)) :
    lines.foldl Reader.feedLine ⟨.done text, message, held⟩ = ⟨.done text, message, held⟩ := by
  have hLines : ∀ pieces : List (List Char),
      pieces.foldl Reader.readLine ⟨.done text, message, held⟩ = ⟨.done text, message, held⟩ := by
    intro pieces
    induction pieces with
    | nil => rfl
    | cons line pieces ih => exact ih
  induction lines with
  | nil => rfl
  | cons line lines ih => rw [List.foldl_cons, Reader.feedLine, hLines, ih]

theorem Reader.verdict_done (subject : Subject) (text held : List Char) (message : Option (List Char)) :
    (Reader.finish ⟨.done text, message, held⟩ subject).2 =
      judgeSummary subject (message.map String.ofList) text := by
  cases held with
  | nil => rfl
  | cons c held => rfl

/-! ## The verdict on the lines -/

theorem joinLines_three (first second third : List Char) :
    joinLines [first, second, third] = first ++ '\n' :: (second ++ '\n' :: third) := by
  simp [joinLines, List.intercalate]

theorem PhraseLine.read?_line {noun : String} {p : CountPhrase} {line : List Char} (h : PhraseLine noun p line)
    {rest : List Char} (hRest : ∀ c ∈ rest.head?, isDigit c = true) :
    CountPhrase.read? noun (line ++ '\n' :: rest) = some (p, '\n' :: rest) := by
  obtain ⟨hPhrase, plural, rfl, -⟩ := h
  exact CountPhrase.read?_text hPhrase plural fun _ => endsPhrase_line hRest

theorem PhraseLine.isDigit_head {noun : String} {p : CountPhrase} {line : List Char} (h : PhraseLine noun p line)
    (rest : List Char) : ∀ c ∈ (line ++ rest).head?, isDigit c = true := by
  obtain ⟨hPhrase, plural, rfl, -⟩ := h
  exact isDigit_head_text noun plural hPhrase rest

theorem CountPhrase.find?_line {p : CountPhrase} {noun : String} {line rest : List Char}
    (h : CountPhrase.read? noun line = some (p, rest)) : CountPhrase.find? noun false ('\n' :: line) = some p := by
  rw [CountPhrase.find?]
  simp [h, show isBlank '\n' = true by decide]

theorem startsLineAfter_eq_false {line : List Char} (h : '\n' ∉ line) (rest : List Char) :
    startsLineAfter (line ++ rest) rest = false := by
  have hTake : (line ++ rest).take ((line ++ rest).length - rest.length) = line := by simp
  rw [startsLineAfter, hTake, beq_eq_false_iff_ne]
  intro hLast
  exact h (List.mem_of_getLast? hLast)

structure Says (text : List Char) (run : Duration) (scenarios steps : CountPhrase) : Prop where
  duration : Duration.find? text = some run
  counts : ∃ rest, CountPhrase.read? "scenario" text = some (scenarios, rest) ∧
    CountPhrase.find? "step" (startsLineAfter text rest) rest = some steps

theorem says_lines {p q : CountPhrase} {first second : List Char} (hFirst : PhraseLine "scenario" p first)
    (hSecond : PhraseLine "step" q second) {run steps : Duration} (hRun : run.WellFormed) (hSteps : steps.WellFormed) :
    Says (joinLines [first, second, durationText run steps]) run p q := by
  obtain ⟨hFirstPlain, hFirstColon⟩ := hFirst.plain isLowerLetter_scenario
  obtain ⟨-, hSecondColon⟩ := hSecond.plain isLowerLetter_step
  have hRead := Duration.read?_durationText hRun hSteps []
  rw [List.append_nil] at hRead
  rw [joinLines_three]
  constructor
  · rw [Duration.find?_line hFirstColon, Duration.find?_line hSecondColon, Duration.find?_of_read? hRead]
  · refine ⟨_, hFirst.read?_line (hSecond.isDigit_head ('\n' :: durationText run steps)), ?_⟩
    rw [startsLineAfter_eq_false hFirstPlain.feed_notMem]
    exact CountPhrase.find?_line (hSecond.read?_line (isDigit_head_durationText hRun steps))

def SummaryBlock.summary (b : SummaryBlock) : Summary :=
  ⟨some b.run.length, total b.scenarios, tallyOf b.scenarios, some (totalOf "passed" b.steps, total b.steps)⟩

theorem judgeSummary_lines (subject : Subject) (failure : Option String) {b : SummaryBlock} (h : b.WellFormed)
    {first second : List Char} (hFirst : CountLine "scenario" b.scenarios first)
    (hSecond : CountLine "step" b.steps second) :
    judgeSummary subject failure (joinLines [first, second, durationText b.run b.stepTime]) =
      b.summary.judge subject failure := by
  obtain ⟨p, hScenarioLine, hScenarioCounts⟩ := hFirst.exists_phrase h.scenarios
  obtain ⟨q, hStepLine, hStepCounts⟩ := hSecond.exists_phrase h.steps
  obtain ⟨hDuration, rest, hScenarios, hSteps⟩ := says_lines hScenarioLine hStepLine h.run h.stepTime
  rw [judgeSummary, readElapsed, hDuration, hScenarios]
  simp only [Duration.elapsedSeconds_eq h.minutes_length h.minutes_lt, bind, Except.bind, readCounts,
    hScenarioCounts.total_eq h.scenarios_lt, hScenarioCounts.tally_eq h.scenarios_lt, hSteps, readSteps,
    hStepCounts.total_eq h.steps_lt, hStepCounts.tally_eq h.steps_lt, count_tallyOf]
  rfl

/-! ## The outcome -/

theorem SummaryBlock.judge_gives {b : SummaryBlock} (h : b.WellFormed) (subject : Subject) (failure : Option String) :
    ∃ outcome, OutcomeOf subject.isOutline b.scenarios outcome ∧
      b.summary.Gives (b.summary.judge subject failure) outcome := by
  rw [Summary.judge]
  have hScenarios : b.summary.scenarios = total b.scenarios := rfl
  rw [hScenarios]
  by_cases hZero : total b.scenarios = 0
  · refine ⟨.errored, ⟨fun _ => rfl, ?_, ?_, ?_⟩, ?_⟩
    · omega
    · omega
    · omega
    · rw [if_pos hZero]
      exact ⟨_, rfl⟩
  rw [if_neg hZero]
  by_cases hOne : total b.scenarios = 1
  · obtain ⟨s, hs, hNumber, hOnly, hSingle⟩ := exists_single_of_total_eq_one hOne
    refine ⟨outcomeOfWord s.word, ⟨?_, fun _ => ⟨s, hs, hNumber, hOnly, rfl⟩, ?_, ?_⟩, ?_⟩
    · omega
    · omega
    · omega
    · rw [if_pos hOne]
      exact Summary.singleVerdict_gives _ subject failure (hSingle b.scenarios (List.Perm.refl b.scenarios)) rfl
        (totalOf_le_total "passed" b.steps) h.steps_lt
  rw [if_neg hOne]
  cases hOutline : subject.isOutline with
  | false =>
    refine ⟨.errored, ⟨fun _ => rfl, ?_, fun _ _ => rfl, ?_⟩, ⟨_, rfl⟩⟩
    · omega
    · intro _ hTrue
      cases hTrue
  | true =>
    refine ⟨_, ⟨?_, ?_, ?_, fun _ _ => rfl⟩, ?_⟩
    · omega
    · omega
    · intro _ hFalse
      cases hFalse
    · have hCount : ∀ word, b.summary.tally.count word = totalOf word b.scenarios := fun word =>
        count_tallyOf word b.scenarios
      have hGives := b.summary.outlineVerdict_gives subject failure
        (by rw [hCount]; exact totalOf_le_total "passed" b.scenarios) h.scenarios_lt
      rw [hCount, hCount, hScenarios] at hGives
      exact hGives

/-! ## The whole block -/

/-- The lines of a summary, read from a state without one, and all lines after them. -/
theorem Reader.foldl_feedLine_summary (r : Reader) (hOpen : ∀ text, r.mode ≠ .done text) {p q : CountPhrase}
    {first second : List Char} (hFirst : PhraseLine "scenario" p first) (hSecond : PhraseLine "step" q second)
    {run steps : Duration} (hRun : run.WellFormed) (hSteps : steps.WellFormed) (further : List String) :
    ([first, second, durationText run steps].map String.ofList ++ further).foldl Reader.feedLine r =
      ⟨.done (joinLines [first, second, durationText run steps]), r.messageAtSummary, r.held⟩ := by
  have hLines : ∀ line ∈ [first, second, durationText run steps].map String.ofList, '\n' ∉ line.toList := by
    simp [(hFirst.plain isLowerLetter_scenario).1.feed_notMem, (hSecond.plain isLowerLetter_step).1.feed_notMem,
      (plainLine_durationText hRun hSteps).feed_notMem]
  rw [List.foldl_append, Reader.foldl_feedLine_of_notMem r hLines]
  simp only [List.map_cons, List.map_nil, String.toList_ofList, List.foldl_cons, List.foldl_nil,
    r.readLine_scenarioLine hOpen hFirst, Reader.readLine_stepLine hSecond,
    Reader.readLine_durationLine hRun hSteps, Reader.foldl_feedLine_done]

theorem SummaryBlock.foldl_feedLine {b : SummaryBlock} (h : b.WellFormed) {r : Reader}
    (hOpen : ∀ text, r.mode ≠ .done text) {first second : List Char}
    (hFirst : CountLine "scenario" b.scenarios first) (hSecond : CountLine "step" b.steps second)
    (further : List String) :
    ([first, second, durationText b.run b.stepTime].map String.ofList ++ further).foldl Reader.feedLine r =
      ⟨.done (joinLines [first, second, durationText b.run b.stepTime]), r.messageAtSummary, r.held⟩ := by
  obtain ⟨p, hScenarioLine, -⟩ := hFirst.exists_phrase h.scenarios
  obtain ⟨q, hStepLine, -⟩ := hSecond.exists_phrase h.steps
  exact r.foldl_feedLine_summary hOpen hScenarioLine hStepLine h.run h.stepTime further

/-- A reordered block is well-formed as well, and is judged in the same way. -/
theorem SummaryBlock.WellFormed.perm {b : SummaryBlock} (h : b.WellFormed) {scenarios steps : List Share}
    (hScenarios : scenarios.Perm b.scenarios) (hSteps : steps.Perm b.steps) :
    SummaryBlock.WellFormed { b with scenarios, steps } where
  scenarios s hs := h.scenarios s (hScenarios.mem_iff.mp hs)
  steps s hs := h.steps s (hSteps.mem_iff.mp hs)
  scenarios_lt := total_perm hScenarios ▸ h.scenarios_lt
  steps_lt := total_perm hSteps ▸ h.steps_lt
  run := h.run
  stepTime := h.stepTime
  minutes_length := h.minutes_length
  minutes_lt := h.minutes_lt

theorem SummaryBlock.judge_perm (b : SummaryBlock) (subject : Subject) (failure : Option String)
    {scenarios steps : List Share} (hScenarios : scenarios.Perm b.scenarios) (hSteps : steps.Perm b.steps) :
    Summary.judge (SummaryBlock.summary { b with scenarios, steps }) subject failure =
      b.summary.judge subject failure := by
  simp only [SummaryBlock.summary, total_perm hScenarios, total_perm hSteps, totalOf_perm "passed" hSteps]
  apply Summary.judge_congr
  · intro word
    rw [count_tallyOf, count_tallyOf, totalOf_perm word hScenarios]
  · intro hOne
    obtain ⟨s, -, -, -, hSingle⟩ := exists_single_of_total_eq_one hOne
    rw [hSingle scenarios hScenarios, hSingle b.scenarios (List.Perm.refl b.scenarios)]

/-- A well-formed summary that arrives in a state without one gives a verdict with its numbers and its outcome. The order
of its shares, and what comes after it, make no difference. -/
theorem verdict_of_summaryBlock (r : Reader) (hOpen : ∀ text, r.mode ≠ .done text) (subject : Subject)
    (b : SummaryBlock) (h : b.WellFormed) :
    ∃ v : Verdict,
      (∀ lines, b.Written lines → ∀ further : List String,
        (((lines.map String.ofList ++ further).foldl Reader.feedLine r).finish subject).2 = .ok v) ∧
      v.scenariosTotal = some (total b.scenarios) ∧ v.scenariosPassed = some (totalOf "passed" b.scenarios) ∧
      v.stepsTotal = some (total b.steps) ∧ v.stepsPassed = some (totalOf "passed" b.steps) ∧
      v.elapsedSeconds = some b.run.length ∧ OutcomeOf subject.isOutline b.scenarios v.outcome := by
  obtain ⟨outcome, hOutcome, message, hJudge⟩ := b.judge_gives h subject (r.messageAtSummary.map String.ofList)
  refine ⟨b.summary.verdict outcome message, ?_, rfl, ?_, rfl, rfl, rfl, hOutcome⟩
  · rintro _ ⟨hScenarios, hSteps, hFirst, hSecond⟩ further
    have hOrdered := h.perm hScenarios hSteps
    rw [SummaryBlock.foldl_feedLine hOrdered hOpen hFirst hSecond further, Reader.verdict_done,
      judgeSummary_lines subject _ hOrdered hFirst hSecond, b.judge_perm subject _ hScenarios hSteps, hJudge]
  · rw [← count_tallyOf]
    rfl

theorem lt_pow_of_lt_ten {n size : Nat} (h : n < 10) (hSize : 0 < size) : n < Nat.pow 10 size :=
  Nat.lt_of_lt_of_le h (Nat.le_self_pow (Nat.ne_of_gt hSize) 10)

theorem verdict_of_failed_scenario :
    ∃ b : SummaryBlock, b.WellFormed ∧
      b.Written ["1 scenario (1 failed)".toList, "2 steps (1 failed, 1 passed)".toList,
        "1m02.5s (executing steps: 0m01s)".toList] ∧
      (∀ text, Reader.mode ⟨.failureCapture (some []), none, []⟩ ≠ .done text) ∧
      ∃ v : Verdict,
        (∀ lines, b.Written lines → ∀ further : List String,
          (((lines.map String.ofList ++ further).foldl Reader.feedLine
            ⟨.failureCapture (some []), none, []⟩).finish ⟨"Login", false⟩).2 = .ok v) ∧
        v.scenariosTotal = some 1 ∧ v.scenariosPassed = some 0 ∧ v.stepsTotal = some 2 ∧ v.stepsPassed = some 1 ∧
        v.outcome = .failed := by
  let b : SummaryBlock := ⟨[⟨1, "failed"⟩], [⟨1, "failed"⟩, ⟨1, "passed"⟩], ⟨['1'], ['0', '2'], ['5']⟩,
    ⟨['0'], ['0', '1'], []⟩⟩
  have hBlock : b.WellFormed := by
    refine ⟨?_, ?_, lt_pow_of_lt_ten (by decide) (by decide), lt_pow_of_lt_ten (by decide) (by decide), ?_, ?_,
      by decide, by decide +kernel⟩
    · intro s hs
      obtain rfl := List.mem_singleton.mp hs
      exact ⟨by decide, List.all_eq_true.mp (by decide)⟩
    · intro s hs
      rcases List.mem_cons.mp hs with rfl | hs
      · exact ⟨by decide, List.all_eq_true.mp (by decide)⟩
      · obtain rfl := List.mem_singleton.mp hs
        exact ⟨by decide, List.all_eq_true.mp (by decide)⟩
    · exact ⟨by decide, List.all_eq_true.mp (by decide), by decide, List.all_eq_true.mp (by decide),
        List.all_eq_true.mp (by decide)⟩
    · exact ⟨by decide, List.all_eq_true.mp (by decide), by decide, List.all_eq_true.mp (by decide),
        List.all_eq_true.mp (by decide)⟩
  have hOpen : ∀ text, Reader.mode ⟨.failureCapture (some []), none, []⟩ ≠ .done text := by
    intro text h
    cases h
  have hWritten : b.Written ["1 scenario (1 failed)".toList, "2 steps (1 failed, 1 passed)".toList,
      "1m02.5s (executing steps: 0m01s)".toList] := by
    have hFirst : "1 scenario (1 failed)".toList = CountPhrase.text "scenario" false
        ⟨Nat.toDigits 10 (total b.scenarios), some (b.scenarios.map Share.entry)⟩ := by decide +kernel
    have hSecond : "2 steps (1 failed, 1 passed)".toList = CountPhrase.text "step" true
        ⟨Nat.toDigits 10 (total b.steps), some (b.steps.map Share.entry)⟩ := by decide +kernel
    have hThird : "1m02.5s (executing steps: 0m01s)".toList = durationText b.run b.stepTime := by decide +kernel
    rw [hFirst, hSecond, hThird]
    exact .lines (List.Perm.refl _) (List.Perm.refl _) (.listed false) (.listed true)
  obtain ⟨v, hVerdict, hTotal, hPassed, hSteps, hStepsPassed, -, hOutcome⟩ :=
    verdict_of_summaryBlock ⟨.failureCapture (some []), none, []⟩ hOpen ⟨"Login", false⟩ b hBlock
  refine ⟨b, hBlock, hWritten, hOpen, v, hVerdict, hTotal, hPassed, hSteps, hStepsPassed, ?_⟩
  obtain ⟨s, hs, -, -, hWord⟩ := hOutcome.one rfl
  obtain rfl := List.mem_singleton.mp hs
  exact hWord

end ScenarioRunner.Transcript
