/-!
# Verdicts

The outcome of one scenario run, with what the run said about itself.
-/

namespace ScenarioRunner

set_option autoImplicit false

inductive Outcome where
  | passed
  | failed
  | errored
  | skipped
deriving DecidableEq, Repr

def Outcome.word : Outcome → String
  | .passed => "passed"
  | .failed => "failed"
  | .errored => "errored"
  | .skipped => "skipped"

/-- The outcomes in the order in which they are counted and shown. -/
def Outcome.all : List Outcome :=
  [.passed, .failed, .errored, .skipped]

theorem Outcome.mem_all (o : Outcome) : o ∈ Outcome.all := by
  cases o <;> decide

def summarize (outcomes : List Outcome) : List (String × Nat) :=
  Outcome.all.map (fun o => (o.word, outcomes.count o)) ++ [("total", outcomes.length)]

structure Verdict where
  outcome : Outcome
  message : Option String := none
  elapsedSeconds : Option Float := none
  stepsPassed : Option Nat := none
  stepsTotal : Option Nat := none
  scenariosPassed : Option Nat := none
  scenariosTotal : Option Nat := none
deriving DecidableEq

def Verdict.isProblem (v : Verdict) : Bool :=
  v.outcome == .failed || v.outcome == .errored

end ScenarioRunner
