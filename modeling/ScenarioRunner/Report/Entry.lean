import ScenarioRunner.Run.CaseResult

/-!
# Entries of a report

What a report says about one result. Lines and counts are whole numbers of any size and sign.
-/

namespace ScenarioRunner.Report

open ScenarioRunner.Run

set_option autoImplicit false

structure Entry where
  id : String
  name : String
  uri : String
  isOutline : Bool := false
  /-- Counted from zero. -/
  line : Int := 0
  outcome : Outcome
  message : Option String := none
  elapsedSeconds : Option Float := none
  stepsPassed : Option Int := none
  stepsTotal : Option Int := none
  scenariosPassed : Option Int := none
  scenariosTotal : Option Int := none
  /-- The line and the character where a problem is shown. -/
  location : Option (Int × Int) := none

def Entry.ofResult (r : CaseResult) : Entry where
  id := r.case.id
  name := r.case.name
  uri := r.case.uri
  isOutline := r.case.isOutline
  line := r.case.span.start.line
  outcome := r.verdict.outcome
  message := r.verdict.message
  elapsedSeconds := r.verdict.elapsedSeconds
  stepsPassed := r.verdict.stepsPassed.map Int.ofNat
  stepsTotal := r.verdict.stepsTotal.map Int.ofNat
  scenariosPassed := r.verdict.scenariosPassed.map Int.ofNat
  scenariosTotal := r.verdict.scenariosTotal.map Int.ofNat
  location := r.location.map fun l => (l.line, (l.character : Int))

def summaryOf (entries : List Entry) : List (String × Nat) :=
  summarize (entries.map (·.outcome))

end ScenarioRunner.Report
