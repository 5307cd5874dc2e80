import ScenarioRunner.Proofs.Transcript.Tally
import ScenarioRunner.Transcript.Summary

/-!
# The outcome of a summary

Main statements: a verdict on a summary has all its numbers, and its outcome follows from how many scenarios ended in
which way. The tally is asked for its counts only, so the order of the shares makes no difference.
-/

namespace ScenarioRunner.Transcript

open ScenarioRunner.Text

set_option autoImplicit false

def outcomeOfWord (word : String) : Outcome :=
  if word = "passed" then .passed
  else if word = "skipped" then .skipped
  else if word = "failed" ∨ word ∈ unfinishedWords then .failed
  else .errored

theorem writeNumber_shortfall {whole part : Nat} (hPart : part ≤ whole)
    (hLimit : whole < Nat.pow 10 Decimal.numeralLimit) :
    ∃ text, Decimal.writeNumber (shortfall whole part) = .ok text := by
  refine ⟨_, (Decimal.writeNumber_eq_ok_iff _ _).mpr ⟨Nat.lt_of_le_of_lt ?_ hLimit, rfl⟩⟩
  rw [shortfall]
  omega

theorem writeNumber_nat {n : Nat} (hLimit : n < Nat.pow 10 Decimal.numeralLimit) :
    Decimal.writeNumber n = .ok (toString (n : Int)) :=
  (Decimal.writeNumber_eq_ok_iff _ _).mpr ⟨hLimit, rfl⟩

def Summary.Gives (s : Summary) (result : Except Fault Verdict) (outcome : Outcome) : Prop :=
  ∃ message, result = .ok (s.verdict outcome message)

theorem Summary.outlineVerdict_gives (s : Summary) (subject : Subject) (failure : Option String)
    (hPassed : s.tally.count "passed" ≤ s.scenarios) (hLimit : s.scenarios < Nat.pow 10 Decimal.numeralLimit) :
    s.Gives (s.outlineVerdict subject failure)
      (if s.tally.count "passed" = s.scenarios then .passed
        else if s.tally.count "skipped" = s.scenarios then .skipped else .failed) := by
  obtain ⟨missing, hMissing⟩ := writeNumber_shortfall hPassed hLimit
  rw [Summary.outlineVerdict]
  split_ifs
  · exact ⟨none, rfl⟩
  · exact ⟨none, rfl⟩
  · simp only [hMissing, writeNumber_nat hLimit]
    exact ⟨_, rfl⟩

theorem Summary.singleVerdict_gives (s : Summary) (subject : Subject) (failure : Option String) {word : String}
    (hWord : s.tally.single? = some word) {passed total : Nat} (hSteps : s.steps = some (passed, total))
    (hPassed : passed ≤ total) (hLimit : total < Nat.pow 10 Decimal.numeralLimit) :
    s.Gives (s.singleVerdict subject failure) (outcomeOfWord word) := by
  obtain ⟨missing, hMissing⟩ := writeNumber_shortfall hPassed hLimit
  unfold Summary.singleVerdict
  rw [hWord]
  split
  · next hPassedWord =>
    cases hPassedWord
    exact ⟨none, rfl⟩
  · next hSkippedWord =>
    cases hSkippedWord
    exact ⟨failure, rfl⟩
  · next hFailedWord =>
    cases hFailedWord
    cases failure with
    | some message => exact ⟨some message, rfl⟩
    | none =>
      simp only [Summary.stepsFailedMessage, hSteps, Option.getD_some, hMissing, writeNumber_nat hLimit]
      exact ⟨_, rfl⟩
  · next other hNotPassed hNotSkipped hNotFailed hOther =>
    cases hOther
    have hKnown : word ≠ "passed" ∧ word ≠ "skipped" ∧ word ≠ "failed" := by
      refine ⟨?_, ?_, ?_⟩
      · rintro rfl
        exact hNotPassed rfl
      · rintro rfl
        exact hNotSkipped rfl
      · rintro rfl
        exact hNotFailed rfl
    rw [outcomeOfWord, if_neg hKnown.1, if_neg hKnown.2.1]
    by_cases hUnfinished : word ∈ unfinishedWords
    · rw [if_pos (Or.inr hUnfinished), if_pos (List.contains_iff_mem.mpr hUnfinished)]
      exact ⟨_, rfl⟩
    · rw [if_neg (not_or.mpr ⟨hKnown.2.2, hUnfinished⟩), if_neg fun h => hUnfinished (List.contains_iff_mem.mp h)]
      exact ⟨_, rfl⟩
  · next hNone => cases hNone

/-- Judging a summary asks its tally only for counts and, of one scenario, for the single word. -/
theorem Summary.judge_congr (subject : Subject) (failure : Option String) (elapsed : Option Float) (scenarios : Nat)
    (steps : Option (Nat × Nat)) {t u : Tally} (hCount : ∀ word, t.count word = u.count word)
    (hSingle : scenarios = 1 → t.single? = u.single?) :
    Summary.judge ⟨elapsed, scenarios, t, steps⟩ subject failure =
      Summary.judge ⟨elapsed, scenarios, u, steps⟩ subject failure := by
  have hVerdict : ∀ outcome message, Summary.verdict ⟨elapsed, scenarios, t, steps⟩ outcome message =
      Summary.verdict ⟨elapsed, scenarios, u, steps⟩ outcome message := by
    intro outcome message
    simp only [Summary.verdict, hCount]
  simp only [Summary.judge, Summary.outlineVerdict, hVerdict, hCount]
  split_ifs with hZero hOne
  · rfl
  · simp only [Summary.singleVerdict, hSingle hOne, hVerdict]
    rfl
  · rfl
  · rfl
  · rfl
  · rfl

/-- How the outcome follows from the shares. -/
structure OutcomeOf (isOutline : Bool) (shares : List Share) (outcome : Outcome) : Prop where
  none : total shares = 0 → outcome = .errored
  one : total shares = 1 → ∃ s ∈ shares, s.number = 1 ∧ (∀ other ∈ shares, other.number = 1 → other.word = s.word) ∧
    outcome = outcomeOfWord s.word
  several : 1 < total shares → isOutline = false → outcome = .errored
  rows : 1 < total shares → isOutline = true →
    outcome = if totalOf "passed" shares = total shares then .passed
      else if totalOf "skipped" shares = total shares then .skipped else .failed

/-- A single scenario has one word, which the tally of its shares in any order names. -/
theorem exists_single_of_total_eq_one {shares : List Share} (h : total shares = 1) :
    ∃ s ∈ shares, s.number = 1 ∧ (∀ other ∈ shares, other.number = 1 → other.word = s.word) ∧
      ∀ others : List Share, others.Perm shares → (tallyOf others).single? = some s.word := by
  obtain ⟨s, hs, hNumber, hOnly⟩ := exists_share_of_total_eq_one h
  refine ⟨s, hs, hNumber, ?_, ?_⟩
  · intro other hOther hOne
    have hLow := number_le_totalOf hOther
    have hHigh := totalOf_le_total other.word shares
    exact (hOnly other.word).mp (by omega)
  · intro others hPerm
    apply Tally.single?_eq_some (nodup_tallyOf others)
    intro word
    rw [count_tallyOf, totalOf_perm word hPerm]
    exact hOnly word

end ScenarioRunner.Transcript
