import ScenarioRunner.Proofs.Run.CaseSelection
import ScenarioRunner.Proofs.Run.Session
import ScenarioRunner.Proofs.Text.TerminalCodes
import ScenarioRunner.Proofs.Transcript.Chunks
import ScenarioRunner.Proofs.Transcript.Duration
import ScenarioRunner.Proofs.Transcript.Readable

/-!
# A launch that fails

The text of a failed launch is read like any other output of a run. Main statement: the case is errored whatever the
text says, unless it says a duration whose minutes fit no double. Durations are looked for once codes and zero-width
characters are gone, so that digits which are apart in the text may stand together in such a duration.
-/

namespace ScenarioRunner.Run

open ScenarioRunner.Feature
open ScenarioRunner.Text
open ScenarioRunner.Transcript

set_option autoImplicit false

/-! ## Runs of digits -/

def RunsWithin (n : Nat) (s : List Char) : Prop :=
  ∀ run, run <:+: s → (∀ c ∈ run, isDigit c = true) → run.length ≤ n

section

variable {n : Nat} {s t : List Char} {c : Char}

theorem runsWithin_of_length_le (h : s.length ≤ n) : RunsWithin n s :=
  fun _ hInfix _ => Nat.le_trans hInfix.length_le h

theorem RunsWithin.mono (h : RunsWithin n t) (hInfix : s <:+: t) : RunsWithin n s :=
  fun run hRun hDigits => h run (hRun.trans hInfix) hDigits

theorem RunsWithin.cons (h : RunsWithin n s) (hc : isDigit c = false) : RunsWithin n (c :: s) := by
  intro run hInfix hDigits
  obtain hPrefix | hLater := List.infix_cons_iff.mp hInfix
  · obtain rfl | ⟨rest, rfl, -⟩ := List.prefix_cons_iff.mp hPrefix
    · exact Nat.zero_le n
    · have hDigit := hDigits c List.mem_cons_self
      rw [hc] at hDigit
      cases hDigit
  · exact h run hLater hDigits

theorem RunsWithin.append_left (h : RunsWithin n t) (hs : ∀ c ∈ s, isDigit c = false) : RunsWithin n (s ++ t) := by
  induction s with
  | nil => exact h
  | cons c s ih =>
    obtain ⟨hc, hs⟩ := List.forall_mem_cons.mp hs
    exact (ih hs).cons hc

/-- A character that is no digit keeps the runs on its two sides apart. -/
theorem RunsWithin.append_cons (hs : RunsWithin n s) (hc : isDigit c = false) (ht : RunsWithin n t) :
    RunsWithin n (s ++ c :: t) := by
  induction s with
  | nil => exact ht.cons hc
  | cons d s ih =>
    intro run hInfix hDigits
    obtain hPrefix | hLater := List.infix_cons_iff.mp hInfix
    · have hBefore : d :: s <+: d :: (s ++ c :: t) := List.prefix_append (d :: s) (c :: t)
      obtain hWithin | ⟨rest, rfl⟩ := List.prefix_or_prefix_of_prefix hPrefix hBefore
      · exact hs run hWithin.isInfix hDigits
      · obtain ⟨tail, hTail⟩ := hPrefix
        have hRest : rest ++ tail = c :: t := by simpa using hTail
        cases rest with
        | nil => exact hs _ (by simp) hDigits
        | cons e rest =>
          obtain ⟨rfl, -⟩ := List.cons.inj hRest
          have hDigit := hDigits e (by simp)
          rw [hc] at hDigit
          cases hDigit
    · exact ih (hs.mono (List.suffix_cons d s).isInfix) run hLater hDigits

end

/-! ## The line of a failed launch -/

def launchLine (text : String) : String :=
  "Could not start cucumber: " ++ text

theorem toList_launchLine (text : String) :
    (launchLine text).toList = "Could not start cucumber: ".toList ++ text.toList :=
  String.toList_append

def readForm (line : String) : List Char :=
  trim (cleanLine line.toList)

def launchWords : List Char :=
  "ould not start cucumber: ".toList

theorem readForm_launchLine (text : String) :
    ∃ rest, readForm (launchLine text) = 'C' :: rest ∧ rest <+: launchWords ++ stripCodes text.toList := by
  have hUnmarked : IsUnmarked ('C' :: launchWords) := by decide +kernel
  have hLead : "Could not start cucumber: ".toList = 'C' :: launchWords := by decide +kernel
  have hText : (launchLine text).toList = 'C' :: launchWords ++ text.toList := by
    rw [toList_launchLine, hLead]
  have hStrip : stripCodes (launchLine text).toList = 'C' :: (launchWords ++ stripCodes text.toList) := by
    rw [hText]
    exact hUnmarked.stripCodes_append text.toList
  obtain ⟨line, hClean, hLine⟩ := exists_dropTrailing_cons (p := (· == '\r')) (c := 'C') (by decide)
    (launchWords ++ stripCodes text.toList)
  obtain ⟨rest, hTrim, hRest⟩ := exists_dropTrailing_cons (p := isBlank) (c := 'C') (by decide) line
  have hLeft : trimLeft ('C' :: line) = 'C' :: line := dropWhile_eq_self (head_cons (by decide) line)
  refine ⟨rest, ?_, hRest.trans hLine⟩
  rw [readForm, cleanLine, hStrip, hClean, trim, hLeft, trimRight, hTrim]

/-- A section marker starts with another letter, and a count with a digit. -/
theorem not_opening_launchLine (text : String) : isSectionMarker (readForm (launchLine text)) = false ∧
    CountPhrase.read? "scenario" (readForm (launchLine text)) = none := by
  obtain ⟨rest, hForm, -⟩ := readForm_launchLine text
  rw [hForm]
  constructor
  · rfl
  · rfl

theorem bounded_launchLine {text : String} (h : RunsWithin safeDigits (stripCodes text.toList)) :
    ∀ d ∈ Duration.find? (readForm (launchLine text)), d.Bounded := by
  intro d hd
  obtain ⟨rest, hForm, hRest⟩ := readForm_launchLine text
  have hAll : (launchWords.all fun c => !isDigit c) = true := by decide +kernel
  have hWords : ∀ c ∈ launchWords, isDigit c = false := by simpa using hAll
  have hRuns : RunsWithin safeDigits (readForm (launchLine text)) := by
    rw [hForm]
    exact ((h.append_left hWords).mono hRest.isInfix).cons (by decide)
  obtain ⟨hInfix, hDigits⟩ := Duration.minutes_of_find? hd
  exact Duration.bounded_of_length_le (hRuns d.minutes hInfix hDigits)

def erroredVerdict (message : String) (elapsed : Option Float) : Verdict where
  outcome := .errored
  message := some message
  elapsedSeconds := elapsed

/-- A line that neither opens a section nor counts scenarios is no verdict on its own. -/
theorem yieldsIf_interpret_line {line : String} (hFeed : '\n' ∉ line.toList)
    (hMarker : isSectionMarker (readForm line) = false)
    (hCount : CountPhrase.read? "scenario" (readForm line) = none) (subject : Subject) :
    ∃ message, message ≠ "" ∧ YieldsIf (∀ d ∈ Duration.find? (readForm line), d.Bounded)
      (erroredVerdict message ((Duration.find? (readForm line)).map Duration.value)) (interpret [line] subject) := by
  have hRead : interpret [line] subject = ((Reader.readIdle {} (cleanLine line.toList)).finish subject).2 := by
    rw [interpret, List.foldl_cons, List.foldl_nil, Reader.feedLine_of_notMem {} hFeed]
    rfl
  rw [hRead, Reader.readIdle, ← readForm, hMarker, hasDuration, startsWithCount, hCount]
  cases hDuration : Duration.find? (readForm line) with
  | none => exact ⟨unknownError, by decide, yieldsIf_ok (by simp) _⟩
  | some d =>
    have hElapsed := yieldsIf_readElapsed (readForm line)
    rw [hDuration] at hElapsed
    refine ⟨"Unable to read the run summary for \"" ++ subject.name ++ "\"", ?_, ?_⟩
    · intro hEmpty
      have hLength := congrArg String.length hEmpty
      rw [String.length_append, String.length_append] at hLength
      have hWords : "Unable to read the run summary for \"".length = 36 := by decide
      have hNone : "".length = 0 := rfl
      omega
    · change YieldsIf _ _ (judgeSummary subject none (readForm line))
      rw [judgeSummary, hCount]
      exact hElapsed.map (erroredVerdict _)

/-! ## The case and the next one -/

structure CaseResult.IsLaunchError (r : CaseResult) (c : Case) : Prop where
  case_eq : r.case = c
  outcome_eq : r.verdict.outcome = .errored
  message_eq : ∃ message, message ≠ "" ∧ r.verdict.message = some message
  stepsPassed_eq : r.verdict.stepsPassed = none
  stepsTotal_eq : r.verdict.stepsTotal = none
  scenariosPassed_eq : r.verdict.scenariosPassed = none
  scenariosTotal_eq : r.verdict.scenariosTotal = none
  location_eq : r.location = some c.anchor.location

theorem yieldsIf_interpretedResult_launchLine (c : Case) {text : String} (hFeed : '\n' ∉ text.toList) :
    ∃ result : CaseResult, result.IsLaunchError c ∧
      YieldsIf (∀ d ∈ Duration.find? (readForm (launchLine text)), d.Bounded) result
        (interpretedResult c [launchLine text]) := by
  have hLine : '\n' ∉ (launchLine text).toList := by
    have hWords : '\n' ∉ "Could not start cucumber: ".toList := by decide +kernel
    rw [toList_launchLine, List.mem_append, not_or]
    exact ⟨hWords, hFeed⟩
  obtain ⟨hMarker, hCount⟩ := not_opening_launchLine text
  obtain ⟨message, hMessage, hVerdict⟩ := yieldsIf_interpret_line hLine hMarker hCount ⟨c.name, c.isOutline⟩
  refine ⟨_, ?_, hVerdict.map fun verdict =>
    CaseResult.mk c verdict (problemLocation c verdict) [launchLine text]⟩
  exact ⟨rfl, rfl, ⟨message, hMessage, rfl⟩, rfl, rfl, rfl, rfl, rfl⟩

section

variable {system : Launch → LaunchResult} {host : Host Supervisor} {s : Session Supervisor} {c : Case}

theorem run_of_failed_launch {s : Supervisor} {name text : String}
    (h : system (launchFor s.settings s.environment name) = .failed text) :
    ∃ state, (supervisorRunner system).run s name = (state, .ok ⟨[launchLine text], false⟩) := by
  simp only [supervisorRunner, Supervisor.run, h]
  exact ⟨_, rfl⟩

theorem Session.runner_executeCase {σ : Type} {s : Session σ} {host : Host σ} (hOpen : s.isCancelled = false)
    (hFresh : host.isStale s.runner c = false) :
    (s.executeCase host c).1.runner = (host.run s.runner c.name).1 := by
  rcases hRun : host.run s.runner c.name with ⟨state, fault | output⟩
  · simp [Session.executeCase, hOpen, hFresh, hRun]
  · rw [Session.executeCase_of_run hOpen hFresh hRun]

structure Session.GoesOn (s : Session Supervisor) (host : Host Supervisor) (c : Case) (result : CaseResult) : Prop where
  result_eq : (s.executeCase host c).2 = .ok result
  next : ∀ state, host.notify (s.executeCase host c).1.runner result = (state, .ok false) → ∀ next rest,
    s.execute host (c :: next :: rest) = Session.execute host ⟨state, s.results ++ [result], false⟩ (next :: rest) ∧
      (host.isStale state next = false →
        (Session.executeCase ⟨state, s.results ++ [result], false⟩ host next).1.runner.launches =
          state.launches ++ [launchFor state.settings state.environment next.name])

theorem Session.goesOn (hHost : host.toRunner = supervisorRunner system) {s' : Session Supervisor} {result : CaseResult}
    (hCase : s.executeCase host c = (s', .ok result)) (hResults : s'.results = s.results)
    (hOpen : s'.isCancelled = false) : s.GoesOn host c result := by
  refine ⟨by rw [hCase], ?_⟩
  intro state hNotify next rest
  rw [hCase] at hNotify
  constructor
  · rw [Session.execute, hCase]
    simp only [Session.report, hNotify, hResults, hOpen, Bool.false_eq_true, if_false]
  · intro hFresh
    rw [Session.runner_executeCase rfl hFresh, hHost]
    exact launches_run system state next.name

/-- A launch that fails makes its case errored if the minutes of a duration in the text fit a double, and otherwise a
fault escapes. They do fit if no run of digits is too long once codes and zero-width characters are gone. -/
theorem isLaunchError_of_failed_launch (hHost : host.toRunner = supervisorRunner system) (hOpen : s.isCancelled = false)
    (hFresh : host.isStale s.runner c = false) {text : String}
    (hLaunch : system (launchFor s.runner.settings s.runner.environment c.name) = .failed text)
    (hFeed : '\n' ∉ text.toList) :
    ∃ result : CaseResult, result.IsLaunchError c ∧
      (RunsWithin safeDigits (stripCodes text.toList) → s.GoesOn host c result) ∧
      YieldsIf (∀ d ∈ Duration.find? (readForm (launchLine text)), d.Bounded) result (s.executeCase host c).2 := by
  obtain ⟨result, hError, hYields⟩ := yieldsIf_interpretedResult_launchLine c hFeed
  obtain ⟨state, hRun⟩ := run_of_failed_launch hLaunch
  rw [← hHost] at hRun
  have hCase := Session.executeCase_of_run hOpen hFresh hRun
  simp only [Bool.false_eq_true, if_false] at hCase
  refine ⟨result, hError, fun hRuns => ?_, ?_⟩
  · rw [hYields.ok (bounded_launchLine hRuns)] at hCase
    exact Session.goesOn hHost hCase rfl rfl
  · rw [hCase]
    exact hYields

end

def failingHost (text : String) : Host Supervisor :=
  { supervisorRunner fun _ => .failed text with
    isStale := fun _ _ => false
    notify := fun s _ => (s, .ok false) }

def freshSession : Session Supervisor where
  runner := { settings := { cwd := {} }, environment := [] }

/-- A marker, a coloured count of passed scenarios and a duration. -/
def misleadingText : String :=
  "Failures: \x1b[32m1 scenario (1 passed)\x1b[0m 0m1s (executing steps: 0m0s)"

theorem isLaunchError_of_misleadingText :
    '\n' ∉ misleadingText.toList ∧ ∃ result : CaseResult, result.IsLaunchError (namedCase "s") ∧
      freshSession.GoesOn (failingHost misleadingText) (namedCase "s") result := by
  have hFeed : '\n' ∉ misleadingText.toList := by decide +kernel
  have hRuns : RunsWithin safeDigits (stripCodes misleadingText.toList) :=
    runsWithin_of_length_le (by decide +kernel)
  have hHost : (failingHost misleadingText).toRunner = supervisorRunner fun _ => .failed misleadingText := rfl
  have hOpen : freshSession.isCancelled = false := rfl
  have hFresh : (failingHost misleadingText).isStale freshSession.runner (namedCase "s") = false := rfl
  obtain ⟨result, hError, hGoesOn, -⟩ := isLaunchError_of_failed_launch hHost hOpen hFresh rfl hFeed
  exact ⟨hFeed, result, hError, hGoesOn hRuns⟩

/-- A zero-width character cuts the digits of the minutes in two. -/
def cutMinutes : List Char :=
  List.replicate 300 '9' ++ '\u200b' :: (List.replicate 7 '9' ++ "m0s (executing steps: 0m0s)".toList)

theorem not_forall_isLaunchError_of_cut_minutes :
    ¬ ∀ (system : Launch → LaunchResult) (host : Host Supervisor) (s : Session Supervisor) (c : Case) (text : String),
      host.toRunner = supervisorRunner system → s.isCancelled = false → host.isStale s.runner c = false →
      system (launchFor s.runner.settings s.runner.environment c.name) = .failed text →
      '\n' ∉ text.toList → RunsWithin 300 text.toList →
      ∃ result : CaseResult, result.IsLaunchError c ∧ (s.executeCase host c).2 = .ok result := by
  intro h
  have hText : (String.ofList cutMinutes).toList = cutMinutes := String.toList_ofList
  generalize String.ofList cutMinutes = text at hText
  have hFeed : '\n' ∉ text.toList := by
    rw [hText]
    decide +kernel
  have hRuns : RunsWithin 300 text.toList := by
    rw [hText]
    apply RunsWithin.append_cons _ (by decide) (runsWithin_of_length_le (by decide +kernel))
    exact runsWithin_of_length_le (Nat.le_of_eq List.length_replicate)
  have hMinutes : (Duration.find? (readForm (launchLine text))).map Duration.minutes =
      some (List.replicate 307 '9') := by
    rw [readForm, toList_launchLine, hText]
    decide +kernel
  obtain ⟨d, hFound, hd⟩ := Option.map_eq_some_iff.mp hMinutes
  have hBeyond : ¬d.Bounded := by
    intro hBounded
    have hSeconds := hBounded.seconds_lt
    rw [hd] at hSeconds
    exact absurd hSeconds (by decide +kernel)
  obtain ⟨result, -, hResult⟩ := h (fun _ => .failed text) (failingHost text) freshSession (namedCase "s") text
    rfl rfl rfl rfl hFeed hRuns
  obtain ⟨_, -, hYields⟩ := yieldsIf_interpretedResult_launchLine (namedCase "s") hFeed
  obtain ⟨fault, -, hFault⟩ := hYields.fault fun hAll => hBeyond (hAll d hFound)
  have hCase : (freshSession.executeCase (failingHost text) (namedCase "s")).2 = .error fault := hFault
  rw [hResult] at hCase
  cases hCase

end ScenarioRunner.Run
