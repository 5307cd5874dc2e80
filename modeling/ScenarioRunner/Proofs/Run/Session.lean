import Mathlib.Tactic.Common
import ScenarioRunner.Run.Session

/-!
# What a session does with its queue

A session takes one turn for each case. Main statement: unless a fault escapes, the turns account for all new results
and for all that is asked of the host, in the order of the queue. What becomes of a case depends on whether the session
is cancelled when its turn comes, on whether its file has changed by then, and on the output of its own run.
-/

namespace ScenarioRunner.Run

open ScenarioRunner.Feature
open ScenarioRunner.Transcript

set_option autoImplicit false

variable {σ : Type}

/-! ## A host with a log -/

/-- What a session asks of its host, with the answer. -/
inductive Act where
  | launch (name : String) (answer : Except Fault RunOutput)
  | stop
  | notify (result : CaseResult) (answer : Except Fault Bool)

/-- The same host, with a log of what is asked of it. Staleness is looked up without a trace. -/
def Host.recorded (host : Host σ) : Host (σ × List Act) where
  run s name :=
    let (state, answer) := host.run s.1 name
    ((state, s.2 ++ [.launch name answer]), answer)
  stop s := (host.stop s.1, s.2 ++ [.stop])
  isStale s := host.isStale s.1
  notify s result :=
    let (state, answer) := host.notify s.1 result
    ((state, s.2 ++ [.notify result answer]), answer)

def Session.recorded (s : Session σ) (acts : List Act) : Session (σ × List Act) where
  runner := (s.runner, acts)
  results := s.results
  isCancelled := s.isCancelled

/-! ## Results -/

/-- The result of a case that was skipped: it says nothing on steps and scenarios. -/
structure CaseResult.Skips (r : CaseResult) (c : Case) : Prop where
  case_eq : r.case = c
  outcome_eq : r.verdict.outcome = .skipped
  stepsPassed_eq : r.verdict.stepsPassed = none
  stepsTotal_eq : r.verdict.stepsTotal = none
  scenariosPassed_eq : r.verdict.scenariosPassed = none
  scenariosTotal_eq : r.verdict.scenariosTotal = none

theorem skips_skippedResult (c : Case) (reason : String) (output : List String) :
    (skippedResult c reason output).Skips c :=
  ⟨rfl, rfl, rfl, rfl, rfl, rfl⟩

/-- A place is shown for the outcomes that are a problem, and for no other. -/
def CaseResult.IsLocated (r : CaseResult) : Prop :=
  r.location.isSome = true ↔ r.verdict.outcome = .failed ∨ r.verdict.outcome = .errored

theorem isLocated_skippedResult (c : Case) (reason : String) (output : List String) :
    (skippedResult c reason output).IsLocated := by
  simp [CaseResult.IsLocated, skippedResult]

theorem isSome_problemLocation_iff (c : Case) (v : Verdict) :
    (problemLocation c v).isSome = true ↔ v.outcome = .failed ∨ v.outcome = .errored := by
  rw [problemLocation]
  split_ifs with hFailed hProblem
  · simp [hFailed.1]
  · simpa [Verdict.isProblem] using hProblem
  · simpa [Verdict.isProblem] using hProblem

theorem eq_of_interpretedResult {c : Case} {output : List String} {result : CaseResult}
    (h : interpretedResult c output = .ok result) : result.case = c ∧ result.IsLocated := by
  rw [interpretedResult] at h
  cases hVerdict : interpret output ⟨c.name, c.isOutline⟩ with
  | error fault =>
    rw [hVerdict] at h
    cases h
  | ok verdict =>
    rw [hVerdict] at h
    cases h
    exact ⟨rfl, isSome_problemLocation_iff c verdict⟩

/-! ## One turn -/

/-- What becomes of a case whose turn comes: the output of its run, if it is run, and its result. -/
inductive Decides (host : Host σ) (s : Session σ) (c : Case) : Option RunOutput → CaseResult → Prop where
  | cancelled (h : s.isCancelled = true) : Decides host s c none (skippedResult c runCancelled)
  | stale (hOpen : s.isCancelled = false) (hStale : host.isStale s.runner c = true) :
      Decides host s c none (skippedResult c fileChanged)
  | interrupted (hOpen : s.isCancelled = false) (hFresh : host.isStale s.runner c = false) {output : RunOutput}
      (hRun : (host.run s.runner c.name).2 = .ok output) (hInterrupted : output.isInterrupted = true) :
      Decides host s c (some output) (skippedResult c runCancelled output.lines)
  | finished (hOpen : s.isCancelled = false) (hFresh : host.isStale s.runner c = false) {output : RunOutput}
      (hRun : (host.run s.runner c.name).2 = .ok output) (hInterrupted : output.isInterrupted = false)
      {result : CaseResult} (hResult : interpretedResult c output.lines = .ok result) :
      Decides host s c (some output) result

structure Turn (σ : Type) where
  start : Session σ
  case : Case
  output : Option RunOutput
  result : CaseResult
  /-- Whoever is told of the result cancels the session. -/
  cancels : Bool

def Turn.isCancelling (t : Turn σ) : Bool :=
  t.output.any RunOutput.isInterrupted || t.cancels

def launchActs (name : String) (output : Option RunOutput) : List Act :=
  output.toList.map fun output => .launch name (.ok output)

def reportActs (result : CaseResult) (cancels : Bool) : List Act :=
  .notify result (.ok cancels) :: if cancels then [.stop] else []

def Turn.acts (t : Turn σ) : List Act :=
  launchActs t.case.name t.output ++ reportActs t.result t.cancels

theorem Session.executeCase_of_run {s : Session σ} {host : Host σ} {c : Case} (hOpen : s.isCancelled = false)
    (hFresh : host.isStale s.runner c = false) {state : σ} {output : RunOutput}
    (hRun : host.run s.runner c.name = (state, .ok output)) :
    s.executeCase host c = (⟨state, s.results, output.isInterrupted⟩,
      if output.isInterrupted = true then .ok (skippedResult c runCancelled output.lines)
      else interpretedResult c output.lines) := by
  simp only [Session.executeCase, hOpen, hFresh, hRun, Bool.false_eq_true, if_false]
  split_ifs with hInterrupted
  · rfl
  · rfl

theorem Session.executeCase_ok {s s' : Session σ} {host : Host σ} {c : Case} {result : CaseResult}
    (h : s.executeCase host c = (s', .ok result)) :
    ∃ output, Decides host s c output result ∧ s'.results = s.results ∧
      s'.isCancelled = (s.isCancelled || output.any RunOutput.isInterrupted) ∧
      ∀ acts, (s.recorded acts).executeCase host.recorded c =
        (s'.recorded (acts ++ launchActs c.name output), .ok result) := by
  by_cases hCancelled : s.isCancelled = true
  · rw [Session.executeCase, if_pos hCancelled] at h
    cases h
    refine ⟨none, .cancelled hCancelled, rfl, by simp, fun acts => ?_⟩
    simp [Session.executeCase, Session.recorded, hCancelled, launchActs]
  have hOpen := Bool.eq_false_iff.mpr hCancelled
  by_cases hStale : host.isStale s.runner c = true
  · rw [Session.executeCase, if_neg hCancelled, if_pos hStale] at h
    cases h
    refine ⟨none, .stale hOpen hStale, rfl, by simp, fun acts => ?_⟩
    simp [Session.executeCase, Session.recorded, Host.recorded, hOpen, hStale, launchActs]
  have hFresh := Bool.eq_false_iff.mpr hStale
  rcases hRun : host.run s.runner c.name with ⟨state, fault | output⟩
  · simp [Session.executeCase, hOpen, hFresh, hRun] at h
  have hAnswer : (host.run s.runner c.name).2 = .ok output := by rw [hRun]
  have hLog : ∀ acts, host.recorded.run (s.runner, acts) c.name =
      ((state, acts ++ launchActs c.name (some output)), .ok output) := by
    intro acts
    simp [Host.recorded, hRun, launchActs]
  rw [Session.executeCase_of_run hOpen hFresh hRun] at h
  obtain ⟨rfl, hResult⟩ := Prod.mk.inj h
  refine ⟨some output, ?_, rfl, by simp [hOpen], fun acts => ?_⟩
  · split_ifs at hResult with hInterrupted
    · cases hResult
      exact .interrupted hOpen hFresh hAnswer hInterrupted
    · exact .finished hOpen hFresh hAnswer (Bool.eq_false_iff.mpr hInterrupted) hResult
  · rw [Session.executeCase_of_run (s := s.recorded acts) hOpen hFresh (hLog acts), hResult]
    rfl

theorem Session.report_ok {s s' : Session σ} {host : Host σ} {result : CaseResult}
    (h : s.report host result = (s', .ok ())) :
    ∃ cancels, s'.results = s.results ++ [result] ∧ s'.isCancelled = (s.isCancelled || cancels) ∧
      ∀ acts, (s.recorded acts).report host.recorded result =
        (s'.recorded (acts ++ reportActs result cancels), .ok ()) := by
  rw [Session.report] at h
  rcases hNotify : host.notify s.runner result with ⟨state, answer⟩
  simp only [hNotify] at h
  cases answer with
  | error fault => cases h
  | ok cancels =>
    cases h
    cases cancels with
    | true =>
      refine ⟨true, rfl, (Bool.or_true _).symm, fun acts => ?_⟩
      simp [Session.report, Session.recorded, Host.recorded, Session.cancel, hNotify, reportActs]
    | false =>
      refine ⟨false, rfl, (Bool.or_false _).symm, fun acts => ?_⟩
      simp [Session.report, Session.recorded, Host.recorded, hNotify, reportActs]

/-- The turn leaves the session as the rest of the queue finds it. -/
structure Turn.LeadsTo (t : Turn σ) (host : Host σ) (s' : Session σ) : Prop where
  decides : Decides host t.start t.case t.output t.result
  results_eq : s'.results = t.start.results ++ [t.result]
  isCancelled_eq : s'.isCancelled = (t.start.isCancelled || t.isCancelling)
  execute_eq : ∀ rest, t.start.execute host (t.case :: rest) = s'.execute host rest
  recorded_eq : ∀ acts rest, (t.start.recorded acts).execute host.recorded (t.case :: rest) =
    (s'.recorded (acts ++ t.acts)).execute host.recorded rest

theorem Session.exists_turn {s : Session σ} {host : Host σ} {c : Case} {rest : List Case}
    (h : (s.execute host (c :: rest)).2 = .ok ()) :
    ∃ (t : Turn σ) (s' : Session σ), t.start = s ∧ t.case = c ∧ t.LeadsTo host s' := by
  rw [Session.execute] at h
  rcases hCase : s.executeCase host c with ⟨s₁, fault | result⟩
  · rw [hCase] at h
    cases h
  rcases hReport : s₁.report host result with ⟨s₂, fault | done⟩
  · simp only [hCase, hReport] at h
    cases h
  obtain ⟨output, hDecides, hKept, hFlag, hLog⟩ := Session.executeCase_ok hCase
  obtain ⟨cancels, hAdded, hFlag', hLog'⟩ := Session.report_ok hReport
  refine ⟨⟨s, c, output, result, cancels⟩, s₂, rfl, rfl, hDecides, ?_, ?_, ?_, ?_⟩
  · rw [hAdded, hKept]
  · rw [hFlag', hFlag, Bool.or_assoc]
    rfl
  · intro rest
    simp only [Session.execute, hCase, hReport]
  · intro acts rest
    simp only [Session.execute, hLog, hLog', Turn.acts, List.append_assoc]

theorem Decides.skips {host : Host σ} {s : Session σ} {c : Case} {output : Option RunOutput} {result : CaseResult}
    (h : Decides host s c output result) (hOutput : ∀ o ∈ output, o.isInterrupted = true) : result.Skips c := by
  cases h with
  | cancelled => exact skips_skippedResult c _ _
  | stale => exact skips_skippedResult c _ _
  | interrupted => exact skips_skippedResult c _ _
  | finished _ _ _ hInterrupted _ =>
    rw [hOutput _ rfl] at hInterrupted
    cases hInterrupted

theorem Decides.case_eq {host : Host σ} {s : Session σ} {c : Case} {output : Option RunOutput} {result : CaseResult}
    (h : Decides host s c output result) : result.case = c := by
  cases h with
  | cancelled => rfl
  | stale => rfl
  | interrupted => rfl
  | finished _ _ _ _ hResult => exact (eq_of_interpretedResult hResult).1

theorem Decides.isLocated {host : Host σ} {s : Session σ} {c : Case} {output : Option RunOutput} {result : CaseResult}
    (h : Decides host s c output result) : result.IsLocated := by
  cases h with
  | cancelled => exact isLocated_skippedResult c _ _
  | stale => exact isLocated_skippedResult c _ _
  | interrupted => exact isLocated_skippedResult c _ _
  | finished _ _ _ _ hResult => exact (eq_of_interpretedResult hResult).2

/-! ## The whole queue -/

/-- The turns of a run in which no fault escapes. -/
structure Session.Ran (s : Session σ) (host : Host σ) (queue : List Case) (turns : List (Turn σ)) : Prop where
  cases_eq : turns.map Turn.case = queue
  results_eq : (s.execute host queue).1.results = s.results ++ turns.map Turn.result
  recorded_eq : ∀ acts, (s.recorded acts).execute host.recorded queue =
    ((s.execute host queue).1.recorded (acts ++ turns.flatMap Turn.acts), .ok ())
  start_eq : ∀ before t after, turns = before ++ t :: after →
    t.start = (s.execute host (before.map Turn.case)).1
  isCancelled_start : ∀ before t after, turns = before ++ t :: after →
    t.start.isCancelled = (s.isCancelled || before.any Turn.isCancelling)
  decides : ∀ t ∈ turns, Decides host t.start t.case t.output t.result
  skips : ∀ t ∈ turns, (∀ output ∈ t.output, output.isInterrupted = true) → t.result.Skips t.case
  result_case : ∀ t ∈ turns, t.result.case = t.case
  isLocated : ∀ t ∈ turns, t.result.IsLocated

theorem Session.ran_nil (s : Session σ) (host : Host σ) : s.Ran host [] [] where
  cases_eq := rfl
  results_eq := (List.append_nil _).symm
  recorded_eq acts := by simp [Session.execute]
  start_eq before t after h := by simp at h
  isCancelled_start before t after h := by simp at h
  decides := by simp
  skips := by simp
  result_case := by simp
  isLocated := by simp

theorem Turn.LeadsTo.ran_cons {t : Turn σ} {host : Host σ} {s' : Session σ} (h : t.LeadsTo host s') {rest : List Case}
    {turns : List (Turn σ)} (hRest : s'.Ran host rest turns) : t.start.Ran host (t.case :: rest) (t :: turns) where
  cases_eq := by rw [List.map_cons, hRest.cases_eq]
  results_eq := by rw [h.execute_eq, hRest.results_eq, h.results_eq, List.map_cons, List.append_assoc]; rfl
  recorded_eq acts := by
    rw [h.recorded_eq, hRest.recorded_eq, h.execute_eq, List.flatMap_cons, List.append_assoc]
  start_eq before u after hSplit := by
    cases before with
    | nil =>
      cases hSplit
      rfl
    | cons first before =>
      cases hSplit
      rw [List.map_cons, h.execute_eq]
      exact hRest.start_eq before u after rfl
  isCancelled_start before u after hSplit := by
    cases before with
    | nil =>
      cases hSplit
      simp
    | cons first before =>
      cases hSplit
      rw [hRest.isCancelled_start before u after rfl, h.isCancelled_eq, List.any_cons, Bool.or_assoc]
  decides := List.forall_mem_cons.mpr ⟨h.decides, hRest.decides⟩
  skips := List.forall_mem_cons.mpr ⟨h.decides.skips, hRest.skips⟩
  result_case := List.forall_mem_cons.mpr ⟨h.decides.case_eq, hRest.result_case⟩
  isLocated := List.forall_mem_cons.mpr ⟨h.decides.isLocated, hRest.isLocated⟩

theorem Session.exists_turns (s : Session σ) (host : Host σ) (queue : List Case)
    (h : (s.execute host queue).2 = .ok ()) : ∃ turns, s.Ran host queue turns := by
  induction queue generalizing s with
  | nil => exact ⟨[], s.ran_nil host⟩
  | cons c rest ih =>
    obtain ⟨t, s', rfl, rfl, hTurn⟩ := Session.exists_turn h
    rw [hTurn.execute_eq] at h
    obtain ⟨turns, hTurns⟩ := ih s' h
    exact ⟨t :: turns, hTurn.ran_cons hTurns⟩

def namedCase (name : String) : Case where
  id := name
  name := name
  uri := "f"
  span := .ofLine 1 10
  anchor := ⟨1, 10⟩
  generation := 1
  templateName := name

/-- Every run passes. One case is stale, and the result of another one cancels the session. -/
def cancellingHost : Host Unit where
  run _ _ := ((), .ok ⟨["1 scenario (1 passed)"], false⟩)
  stop := id
  isStale _ c := c.name == "stale"
  notify _ result := ((), .ok (result.case.name == "last"))

def cancelledQueue : List Case :=
  ["first", "stale", "last", "late"].map namedCase

theorem exists_turns_of_cancellingHost :
    (Session.execute cancellingHost { runner := () } cancelledQueue).2 = .ok () ∧
      outcomesOf (Session.execute cancellingHost { runner := () } cancelledQueue).1.results =
        [.passed, .skipped, .passed, .skipped] ∧
      ∃ turns, Session.Ran { runner := () } cancellingHost cancelledQueue turns := by
  have hOk : (Session.execute cancellingHost { runner := () } cancelledQueue).2 = .ok () := by decide +kernel
  exact ⟨hOk, by decide +kernel, Session.exists_turns _ _ _ hOk⟩

end ScenarioRunner.Run
