import ScenarioRunner.Feature.Tree
import ScenarioRunner.Transcript.Summary

/-!
# Results of cases

A case with its verdict, the place where a problem is shown, and the output of its run.
-/

namespace ScenarioRunner.Run

open ScenarioRunner.Feature
open ScenarioRunner.Transcript

set_option autoImplicit false

structure CaseResult where
  case : Case
  verdict : Verdict
  location : Option Location := none
  output : List String := []
deriving DecidableEq

def skippedResult (c : Case) (reason : String) (output : List String := []) : CaseResult where
  case := c
  verdict := { outcome := .skipped, message := some reason }
  output := output

/-- A failure is shown at its step, and any other problem at the anchor. The step counts of a whole outline span several
rows, so that its problems are shown at the anchor as well. -/
def problemLocation (c : Case) (v : Verdict) : Option Location :=
  if v.outcome = .failed ∧ !c.isOutline then some (c.failureLocation (v.stepsPassed.map Int.ofNat))
  else if v.isProblem then some c.anchor.location
  else none

def interpretedResult (c : Case) (output : List String) : Except Fault CaseResult := do
  let verdict ← interpret output ⟨c.name, c.isOutline⟩
  return { case := c, verdict, location := problemLocation c verdict, output }

def outcomesOf (results : List CaseResult) : List Outcome :=
  results.map fun r => r.verdict.outcome

end ScenarioRunner.Run
