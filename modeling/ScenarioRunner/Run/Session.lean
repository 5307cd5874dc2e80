import ScenarioRunner.Run.CaseResult
import ScenarioRunner.Run.Supervisor

/-!
# Sessions

A session runs cases one after the other and collects their results. Once it is cancelled, every case that has not
finished is skipped. A case whose file has been read again since the case was queued is skipped as well.
-/

namespace ScenarioRunner.Run

open ScenarioRunner.Feature

set_option autoImplicit false

structure Runner (σ : Type) where
  run : σ → String → σ × Except Fault RunOutput
  stop : σ → σ

def supervisorRunner (system : Launch → LaunchResult) : Runner Supervisor where
  run s name :=
    let ((s, ()), result) := s.run system name ignoreLines ()
    (s, result)
  stop := Supervisor.kill

/-- The surroundings of a session: what runs scenarios, what tells whether the file of a case has changed, and who is
told of results. -/
structure Host (σ : Type) extends Runner σ where
  isStale : σ → Case → Bool
  /-- The answer is whether the session is to be cancelled, or what went wrong. -/
  notify : σ → CaseResult → σ × Except Fault Bool

structure Session (σ : Type) where
  runner : σ
  results : List CaseResult := []
  isCancelled : Bool := false

def Session.cancel {σ : Type} (s : Session σ) (runner : Runner σ) : Session σ :=
  { s with runner := runner.stop s.runner, isCancelled := true }

def runCancelled : String := "Run cancelled"

def fileChanged : String := "Feature file changed since the run started"

/-- Runs one case. Nothing is started for a case that is skipped, and an output that a cancellation cut short is not
interpreted. -/
def Session.executeCase {σ : Type} (s : Session σ) (host : Host σ) (c : Case) : Session σ × Except Fault CaseResult :=
  if s.isCancelled then (s, .ok (skippedResult c runCancelled))
  else if host.isStale s.runner c then (s, .ok (skippedResult c fileChanged))
  else
    match host.run s.runner c.name with
    | (state, .error fault) => ({ s with runner := state }, .error fault)
    | (state, .ok output) =>
      let s := { s with runner := state, isCancelled := output.isInterrupted }
      if s.isCancelled then (s, .ok (skippedResult c runCancelled output.lines))
      else (s, interpretedResult c output.lines)

/-- Keeps a result and tells of it. Whoever is told may cancel the session. -/
def Session.report {σ : Type} (s : Session σ) (host : Host σ) (result : CaseResult) : Session σ × Except Fault Unit :=
  let s := { s with results := s.results ++ [result] }
  match host.notify s.runner result with
  | (state, .error fault) => ({ s with runner := state }, .error fault)
  | (state, .ok cancels) =>
    let s := { s with runner := state }
    (if cancels then s.cancel host.toRunner else s, .ok ())

def Session.execute {σ : Type} (host : Host σ) : Session σ → List Case → Session σ × Except Fault Unit
  | s, [] => (s, .ok ())
  | s, c :: rest =>
    match s.executeCase host c with
    | (s, .error fault) => (s, .error fault)
    | (s, .ok result) =>
      match s.report host result with
      | (s, .error fault) => (s, .error fault)
      | (s, .ok ()) => Session.execute host s rest

end ScenarioRunner.Run
