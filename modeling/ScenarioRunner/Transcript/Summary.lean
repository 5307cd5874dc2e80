import ScenarioRunner.Transcript.Reader
import ScenarioRunner.Transcript.Tally
import ScenarioRunner.Verdict

/-!
# From a transcript to a verdict

The summary decides: how many scenarios ran, and what became of them. Without a summary the message of a failing step
makes a failure, and otherwise nothing is known.
-/

namespace ScenarioRunner.Transcript

open ScenarioRunner.Text

set_option autoImplicit false

structure Subject where
  name : String
  isOutline : Bool := false
deriving DecidableEq

def unknownError : String :=
  "Unknown error! Please check logs for more information"

/-- The numbers of a summary. The steps are missing if the run was cut off before them. -/
structure Summary where
  elapsed : Option Float
  scenarios : Nat
  tally : Tally
  steps : Option (Nat × Nat)

/-- The text after the scenario count starts a line if the count took a line feed along. -/
def startsLineAfter (text rest : List Char) : Bool :=
  (text.take (text.length - rest.length)).getLast? == some '\n'

def readSteps (phrase : CountPhrase) : Except Fault (Nat × Nat) := do
  let total ← phrase.total
  let tally ← phrase.tally
  return (tally.count "passed", total)

def readElapsed (text : List Char) : Except Fault (Option Float) :=
  match Duration.find? text with
  | none => .ok none
  | some duration => do return some (← duration.elapsedSeconds)

def readCounts (elapsed : Option Float) (text : List Char) (scenarios : CountPhrase) (rest : List Char) :
    Except Fault Summary := do
  let total ← scenarios.total
  let tally ← scenarios.tally
  match CountPhrase.find? "step" (startsLineAfter text rest) rest with
  | none => return ⟨elapsed, total, tally, none⟩
  | some phrase => return ⟨elapsed, total, tally, some (← readSteps phrase)⟩

def Summary.verdict (s : Summary) (outcome : Outcome) (message : Option String) : Verdict where
  outcome := outcome
  message := message
  elapsedSeconds := s.elapsed
  stepsPassed := s.steps.map Prod.fst
  stepsTotal := s.steps.map Prod.snd
  scenariosPassed := some (s.tally.count "passed")
  scenariosTotal := some s.scenarios

/-- How many of a total did not pass; the entries may add up to more than the total. -/
def shortfall (total passed : Nat) : Int :=
  (total : Int) - passed

def Summary.outlineVerdict (s : Summary) (subject : Subject) (failure : Option String) : Except Fault Verdict :=
  let passed := s.tally.count "passed"
  if passed = s.scenarios then .ok (s.verdict .passed none)
  else if s.tally.count "skipped" = s.scenarios then .ok (s.verdict .skipped none)
  else do
    let missing ← Decimal.writeNumber (shortfall s.scenarios passed)
    let total ← Decimal.writeNumber s.scenarios
    let message := "Scenario outline \"" ++ subject.name ++ "\" failed: " ++ missing ++ " out of " ++ total ++
      " examples did not pass"
    return s.verdict .failed (some (message ++ (failure.map ("\n\n" ++ ·)).getD ""))

def Summary.stepsFailedMessage (s : Summary) : Except Fault String := do
  let (passed, total) := s.steps.getD (0, 0)
  let missing ← Decimal.writeNumber (shortfall total passed)
  let total ← Decimal.writeNumber total
  return missing ++ " out of " ++ total ++ " steps failed"

def unfinishedWords : List String :=
  ["undefined", "ambiguous", "pending"]

def Summary.singleVerdict (s : Summary) (subject : Subject) (failure : Option String) : Except Fault Verdict :=
  match s.tally.single? with
  | some "passed" => .ok (s.verdict .passed none)
  | some "skipped" => .ok (s.verdict .skipped failure)
  | some "failed" =>
    match failure with
    | some message => .ok (s.verdict .failed (some message))
    | none => do return s.verdict .failed (some (← s.stepsFailedMessage))
  | some word =>
    if unfinishedWords.contains word then
      .ok (s.verdict .failed (failure.getD ("Scenario \"" ++ subject.name ++ "\" has " ++ word ++ " steps")))
    else .ok (s.verdict .errored (failure.getD unknownError))
  | none => .ok (s.verdict .errored (failure.getD unknownError))

/-- One scenario is judged by itself, several only if they are the rows of an outline. -/
def Summary.judge (s : Summary) (subject : Subject) (failure : Option String) : Except Fault Verdict :=
  if s.scenarios = 0 then
    .ok (s.verdict .errored (some ("Scenario with name \"Scenario: " ++ subject.name ++ "\" not found")))
  else if s.scenarios = 1 then s.singleVerdict subject failure
  else if subject.isOutline then s.outlineVerdict subject failure
  else .ok (s.verdict .errored (some ("Found multiple scenarios with name \"Scenario: " ++ subject.name ++ "\"")))

def judgeSummary (subject : Subject) (failure : Option String) (text : List Char) : Except Fault Verdict := do
  let elapsed ← readElapsed text
  match CountPhrase.read? "scenario" text with
  | none =>
    let message := failure.getD ("Unable to read the run summary for \"" ++ subject.name ++ "\"")
    return { outcome := .errored, message := some message, elapsedSeconds := elapsed }
  | some (scenarios, rest) =>
    let summary ← readCounts elapsed text scenarios rest
    summary.judge subject failure

def Reader.verdict (r : Reader) (subject : Subject) : Except Fault Verdict :=
  let failure := r.failureMessage.map String.ofList
  match r.mode, failure with
  | .done text, _ => judgeSummary subject failure text
  | _, some message => .ok { outcome := .failed, message := some message }
  | _, none => .ok { outcome := .errored, message := some unknownError }

def Reader.finish (r : Reader) (subject : Subject) : Reader × Except Fault Verdict :=
  (r.close, r.close.verdict subject)

/-- The verdict on a whole transcript, each entry one or more complete lines. -/
def interpret (lines : List String) (subject : Subject) : Except Fault Verdict :=
  ((lines.foldl Reader.feedLine {}).finish subject).2

end ScenarioRunner.Transcript
