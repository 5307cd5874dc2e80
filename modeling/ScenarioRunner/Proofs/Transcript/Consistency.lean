import ScenarioRunner.Proofs.Transcript.Modes

/-!
# Verdicts that agree with themselves

Whatever the transcript is, a problem has a message, numbers come in pairs, and a run has passed only if a summary says
that all of its scenarios have. Main statement: every verdict of a finished transcript is consistent, and says of the
retained summary no more than is in it.
-/

namespace ScenarioRunner.Transcript

open ScenarioRunner.Text

set_option autoImplicit false

theorem YieldsIf.eq_of_ok {α : Type} {condition : Prop} {a b : α} {result : Except Fault α}
    (h : YieldsIf condition a result) (hOk : result = .ok b) : b = a := by
  by_cases hCondition : condition
  · rw [h.ok hCondition] at hOk
    cases hOk
    rfl
  · obtain ⟨fault, -, hError⟩ := h.fault hCondition
    rw [hError] at hOk
    cases hOk

/-! ## Judging a summary -/

/-- An outcome that a summary bears out, with a message where one is due. -/
structure Summary.Supports (s : Summary) (subject : Subject) (outcome : Outcome) (message : Option String) : Prop where
  problem : outcome = .failed ∨ outcome = .errored → ∃ text, message = some text ∧ text ≠ ""
  passed : outcome = .passed → message = none ∧ s.tally.count "passed" = s.scenarios
  ran : outcome = .passed ∨ outcome = .skipped → 1 ≤ s.scenarios
  single : subject.isOutline = false → outcome ≠ .errored → s.scenarios = 1

theorem Summary.supports_errored (s : Summary) (subject : Subject) {text : String} (hText : text ≠ "") :
    s.Supports subject .errored (some text) where
  problem _ := ⟨text, rfl, hText⟩
  passed h := by cases h
  ran h := by rcases h with h | h <;> cases h
  single _ h := absurd rfl h

section

variable {s : Summary} {subject : Subject}

theorem Summary.supports_failed {text : String} (hText : text ≠ "")
    (hSingle : subject.isOutline = false → s.scenarios = 1) : s.Supports subject .failed (some text) where
  problem _ := ⟨text, rfl, hText⟩
  passed h := by cases h
  ran h := by rcases h with h | h <;> cases h
  single hOutline _ := hSingle hOutline

theorem Summary.supports_skipped (message : Option String) (hRan : 1 ≤ s.scenarios)
    (hSingle : subject.isOutline = false → s.scenarios = 1) : s.Supports subject .skipped message where
  problem h := by rcases h with h | h <;> cases h
  passed h := by cases h
  ran _ := hRan
  single hOutline _ := hSingle hOutline

theorem Summary.supports_passed (hPassed : s.tally.count "passed" = s.scenarios) (hRan : 1 ≤ s.scenarios)
    (hSingle : subject.isOutline = false → s.scenarios = 1) : s.Supports subject .passed none where
  problem h := by rcases h with h | h <;> cases h
  passed _ := ⟨rfl, hPassed⟩
  ran _ := hRan
  single hOutline _ := hSingle hOutline

end

theorem Tally.count_of_single? {t : Tally} (h : (t.map Prod.fst).Nodup) {word : String}
    (hWord : t.single? = some word) : t.count word = 1 := by
  obtain ⟨⟨_, n⟩, hFound, rfl⟩ := Option.map_eq_some_iff.mp hWord
  have hOne : n = 1 := by simpa using List.find?_some hFound
  rw [Tally.count_of_mem h (List.mem_of_find?_eq_some hFound), hOne]

def Summary.Bears (s : Summary) (subject : Subject) (verdict : Verdict) : Prop :=
  ∃ outcome message, verdict = s.verdict outcome message ∧ s.Supports subject outcome message

theorem Summary.bears_outlineVerdict {s : Summary} {subject : Subject} (hOutline : subject.isOutline = true)
    (hRan : 1 ≤ s.scenarios) {failure : Option String} {verdict : Verdict}
    (h : s.outlineVerdict subject failure = .ok verdict) : s.Bears subject verdict := by
  have hSingle : subject.isOutline = false → s.scenarios = 1 := by
    intro hNot
    rw [hOutline] at hNot
    cases hNot
  simp only [Summary.outlineVerdict] at h
  split_ifs at h with hPassed hSkipped
  · cases h
    exact ⟨_, _, rfl, Summary.supports_passed hPassed hRan hSingle⟩
  · cases h
    exact ⟨_, _, rfl, Summary.supports_skipped none hRan hSingle⟩
  · obtain ⟨missing, -, h⟩ := exists_of_bind_eq_ok h
    obtain ⟨whole, -, h⟩ := exists_of_bind_eq_ok h
    cases h
    exact ⟨_, _, rfl, Summary.supports_failed (by simp) hSingle⟩

theorem Summary.bears_singleVerdict {s : Summary} (hNodup : (s.tally.map Prod.fst).Nodup) (hOne : s.scenarios = 1)
    (subject : Subject) {failure : Option String} (hFailure : ∀ text ∈ failure, text ≠ "") {verdict : Verdict}
    (h : s.singleVerdict subject failure = .ok verdict) : s.Bears subject verdict := by
  have hText : ∀ text, text ≠ "" → failure.getD text ≠ "" := by
    intro text hText
    cases failure with
    | none => exact hText
    | some message => exact hFailure message rfl
  have hUnknown : failure.getD unknownError ≠ "" := hText unknownError (by decide)
  unfold Summary.singleVerdict at h
  split at h
  · next hWord =>
    cases h
    have hPassed := Tally.count_of_single? hNodup hWord
    exact ⟨_, _, rfl, Summary.supports_passed (hPassed.trans hOne.symm) hOne.ge fun _ => hOne⟩
  · cases h
    exact ⟨_, _, rfl, Summary.supports_skipped failure hOne.ge fun _ => hOne⟩
  · cases failure with
    | some message =>
      cases h
      exact ⟨_, _, rfl, Summary.supports_failed (hFailure message rfl) fun _ => hOne⟩
    | none =>
      obtain ⟨text, hMessage, h⟩ := exists_of_bind_eq_ok h
      obtain ⟨missing, -, hMessage⟩ := exists_of_bind_eq_ok hMessage
      obtain ⟨whole, -, hMessage⟩ := exists_of_bind_eq_ok hMessage
      cases hMessage
      cases h
      exact ⟨_, _, rfl, Summary.supports_failed (by simp) fun _ => hOne⟩
  · split_ifs at h
    · cases h
      exact ⟨_, _, rfl, Summary.supports_failed (hText _ (by simp)) fun _ => hOne⟩
    · cases h
      exact ⟨_, _, rfl, s.supports_errored subject hUnknown⟩
  · cases h
    exact ⟨_, _, rfl, s.supports_errored subject hUnknown⟩

theorem Summary.bears_judge {s : Summary} (hNodup : (s.tally.map Prod.fst).Nodup) (subject : Subject)
    {failure : Option String} (hFailure : ∀ text ∈ failure, text ≠ "") {verdict : Verdict}
    (h : s.judge subject failure = .ok verdict) : s.Bears subject verdict := by
  rw [Summary.judge] at h
  split_ifs at h with hZero hOne hOutline
  · cases h
    exact ⟨_, _, rfl, s.supports_errored subject (by simp)⟩
  · exact Summary.bears_singleVerdict hNodup hOne subject hFailure h
  · exact Summary.bears_outlineVerdict hOutline (Nat.one_le_iff_ne_zero.mpr hZero) h
  · cases h
    exact ⟨_, _, rfl, s.supports_errored subject (by simp)⟩

/-! ## Verdicts -/

/-- The parts of a verdict fit together, and fit the summary that has been retained. -/
structure ConsistentVerdict (subject : Subject) (retained : Option (List Char)) (verdict : Verdict) : Prop where
  problem : verdict.outcome = .failed ∨ verdict.outcome = .errored → ∃ text, verdict.message = some text ∧ text ≠ ""
  passed : verdict.outcome = .passed → verdict.message = none ∧ verdict.scenariosPassed = verdict.scenariosTotal
  steps : verdict.stepsPassed.isSome = verdict.stepsTotal.isSome
  scenarios : verdict.scenariosPassed.isSome = verdict.scenariosTotal.isSome
  elapsed : verdict.elapsedSeconds.isSome = true ↔ ∃ text, retained = some text ∧ hasDuration text = true
  ran : verdict.outcome = .passed ∨ verdict.outcome = .skipped →
    retained.isSome = true ∧ ∃ total, verdict.scenariosTotal = some total ∧ 1 ≤ total
  single : subject.isOutline = false → verdict.outcome ≠ .errored →
    verdict.scenariosTotal = some 1 ∨ retained = none

/-- A problem without counts, as there is where no summary can be read. -/
theorem consistent_problem (subject : Subject) {retained : Option (List Char)} {outcome : Outcome} {text : String}
    {elapsed : Option Float} (hOutcome : outcome = .errored ∨ outcome = .failed ∧ retained = none) (hText : text ≠ "")
    (hElapsed : elapsed.isSome = true ↔ ∃ summary, retained = some summary ∧ hasDuration summary = true) :
    ConsistentVerdict subject retained
      { outcome := outcome, message := some text, elapsedSeconds := elapsed } where
  problem _ := ⟨text, rfl, hText⟩
  passed hPassed := by
    obtain rfl : outcome = .passed := hPassed
    rcases hOutcome with h | ⟨h, -⟩ <;> cases h
  steps := rfl
  scenarios := rfl
  elapsed := hElapsed
  ran hRan := by
    rcases hOutcome with rfl | ⟨rfl, -⟩ <;> rcases hRan with h | h <;> cases h
  single _ hNot := by
    rcases hOutcome with h | ⟨-, hNone⟩
    · exact absurd h hNot
    · exact Or.inr hNone

theorem Summary.Bears.consistent {s : Summary} {subject : Subject} {verdict : Verdict} (h : s.Bears subject verdict)
    {text : List Char} (hElapsed : s.elapsed = (Duration.find? text).map Duration.value) :
    ConsistentVerdict subject (some text) verdict := by
  obtain ⟨outcome, message, rfl, hSupports⟩ := h
  constructor
  · exact hSupports.problem
  · intro hPassed
    obtain ⟨hMessage, hCount⟩ := hSupports.passed hPassed
    exact ⟨hMessage, congrArg some hCount⟩
  · rw [Summary.verdict, Option.isSome_map, Option.isSome_map]
  · rfl
  · simp [Summary.verdict, hElapsed, hasDuration]
  · intro hRan
    exact ⟨rfl, s.scenarios, rfl, hSupports.ran hRan⟩
  · intro hOutline hOutcome
    exact Or.inl (congrArg some (hSupports.single hOutline hOutcome))

theorem consistent_judgeSummary {subject : Subject} {failure : Option String} (hFailure : ∀ text ∈ failure, text ≠ "")
    {text : List Char} {verdict : Verdict} (h : judgeSummary subject failure text = .ok verdict) :
    ConsistentVerdict subject (some text) verdict := by
  rw [judgeSummary] at h
  obtain ⟨elapsed, hElapsed, h⟩ := exists_of_bind_eq_ok h
  obtain rfl := (yieldsIf_readElapsed text).eq_of_ok hElapsed
  split at h
  · cases h
    apply consistent_problem subject (Or.inl rfl)
    · cases failure with
      | none => simp
      | some message => exact hFailure message rfl
    · simp [hasDuration]
  · next scenarios rest hScenarios =>
    obtain ⟨summary, hSummary, h⟩ := exists_of_bind_eq_ok h
    obtain rfl := (yieldsIf_readCounts text scenarios rest).eq_of_ok hSummary
    exact (Summary.bears_judge (nodup_tallyOf _) subject hFailure h).consistent rfl

/-- Every verdict on a transcript is consistent, however malformed the transcript is. -/
theorem consistent_of_finish (subject : Subject) (calls : List Call) (verdict : Verdict)
    (h : ((Reader.afterCalls subject calls).finish subject).2 = .ok verdict) :
    ConsistentVerdict subject ((Reader.afterCalls subject calls).finish subject).1.retained? verdict := by
  have hClosed := Reader.standsIn_afterCalls subject (calls ++ [.finish])
  rw [Reader.afterCalls, List.foldl_concat] at hClosed
  change (Reader.afterCalls subject calls).close.StandsIn _ at hClosed
  change (Reader.afterCalls subject calls).close.verdict subject = .ok verdict at h
  change ConsistentVerdict subject (Reader.afterCalls subject calls).close.retained? verdict
  generalize (Reader.afterCalls subject calls).close = r at hClosed h ⊢
  have hFailure : ∀ text ∈ r.failureMessage.map String.ofList, text ≠ "" := by
    intro text hText
    obtain ⟨message, hMessage, rfl⟩ := Option.map_eq_some_iff.mp hText
    have hNonempty := (hClosed.message message hMessage).ne_nil
    simpa using hNonempty
  obtain ⟨mode, message, held⟩ := r
  cases mode with
  | done text => exact consistent_judgeSummary hFailure h
  | _ =>
    cases message with
    | none =>
      cases h
      exact consistent_problem subject (Or.inl rfl) (by decide) (by simp [Reader.retained?])
    | some message =>
      cases h
      exact consistent_problem subject (Or.inr ⟨rfl, rfl⟩) (hFailure _ rfl) (by simp [Reader.retained?])

/-- An outline whose summary has been cut off before its duration, and names a word twice. -/
theorem consistent_of_cut_summary :
    let calls := [Call.feed "Failures:\n ✖ Given cash\n  refused\n3 scenarios (1 passed, 1 failed,",
      .feed " 1 passed)\n2 steps (2 passed)"]
    let verdict : Verdict :=
      { outcome := .failed
        message := some "Scenario outline \"Pay\" failed: 1 out of 3 examples did not pass\n\nrefused"
        stepsPassed := some 2
        stepsTotal := some 2
        scenariosPassed := some 2
        scenariosTotal := some 3 }
    ((Reader.afterCalls ⟨"Pay", true⟩ calls).finish ⟨"Pay", true⟩).2 = .ok verdict ∧
      ConsistentVerdict ⟨"Pay", true⟩
        ((Reader.afterCalls ⟨"Pay", true⟩ calls).finish ⟨"Pay", true⟩).1.retained? verdict := by
  intro calls verdict
  have h : ((Reader.afterCalls ⟨"Pay", true⟩ calls).finish ⟨"Pay", true⟩).2 = .ok verdict := by decide +kernel
  exact ⟨h, consistent_of_finish _ _ _ h⟩

end ScenarioRunner.Transcript
