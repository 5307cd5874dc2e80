import ScenarioRunner.Proofs.Report.Counts
import ScenarioRunner.Proofs.Report.Records
import ScenarioRunner.Proofs.Report.Saved
import ScenarioRunner.Proofs.Run.Session
import ScenarioRunner.Proofs.Text.Plain

/-!
# The exit status

What a call prints, what it writes and how it ends agree with the results of its cases, whoever runs them and whenever
the call is cancelled.
-/

namespace ScenarioRunner.CommandLine

open ScenarioRunner.Calendar
open ScenarioRunner.Feature
open ScenarioRunner.Files
open ScenarioRunner.Report
open ScenarioRunner.Run
open ScenarioRunner.Settings
open ScenarioRunner.Text

set_option autoImplicit false

variable {σ : Type}

/-! ## Counting results -/

def numberOf (results : List CaseResult) (outcome : Outcome) : Nat :=
  (results.filter fun r => r.verdict.outcome = outcome).length

theorem count_outcomesOf (results : List CaseResult) (outcome : Outcome) :
    (outcomesOf results).count outcome = numberOf results outcome := by
  induction results with
  | nil => rfl
  | cons r results ih =>
    rw [outcomesOf, List.map_cons, ← outcomesOf, List.count_cons, ih, numberOf, numberOf, List.filter_cons]
    by_cases h : r.verdict.outcome = outcome
    · simp [h]
    · simp [h]

theorem length_eq_sum (results : List CaseResult) :
    results.length = numberOf results .passed + numberOf results .failed + numberOf results .errored +
      numberOf results .skipped := by
  induction results with
  | nil => rfl
  | cons r results ih =>
    simp only [numberOf, List.filter_cons] at ih ⊢
    cases r.verdict.outcome with
    | passed => simp; omega
    | failed => simp; omega
    | errored => simp; omega
    | skipped => simp; omega

theorem hasProblem_iff (results : List CaseResult) :
    hasProblem results = true ↔ ∃ r ∈ results, r.verdict.outcome = .failed ∨ r.verdict.outcome = .errored := by
  simp [hasProblem, Verdict.isProblem]

/-! ## The printed text -/

theorem dropReturns_of_notMem {s : List Char} (h : '\r' ∉ s) : dropReturns s = s := by
  induction s with
  | nil => rfl
  | cons c s ih =>
    rw [List.mem_cons, not_or] at h
    rw [dropReturns, ih h.2]
    rintro t rfl
    exact absurd rfl h.1

theorem exists_dropReturns_append (s t : List Char) :
    ∃ before, dropReturns (s ++ '\n' :: t) = before ++ '\n' :: dropReturns t := by
  induction s using dropReturns.induct with
  | case1 s ih =>
    obtain ⟨before, h⟩ := ih
    exact ⟨'\n' :: before, congrArg (List.cons '\n') h⟩
  | case2 c s hApart ih =>
    obtain ⟨before, h⟩ := ih
    by_cases hReturn : c = '\r' ∧ s = []
    -- A return right before the feed is dropped, and the feed stays.
    · obtain ⟨rfl, rfl⟩ := hReturn
      exact ⟨[], rfl⟩
    · refine ⟨c :: before, ?_⟩
      rw [List.cons_append, dropReturns, h, List.cons_append]
      intro rest hc hs
      cases s with
      | nil => exact hReturn ⟨hc, rfl⟩
      | cons d s => exact hApart s hc (by rw [(List.cons.inj hs).1])
  | case3 => exact ⟨[], rfl⟩

theorem plainLine_of_notMem {line : String} (h : '\x1b' ∉ line.toList) : plainLine line = line := by
  rw [plainLine, removeCodes_of_notMem _ h, String.ofList_toList]

/-- The last two lines are printed as they are. -/
theorem exists_text_eq {a : Answer} {lines : List String} {last : String} (h : a.lines = lines ++ ["", last])
    (hEscape : '\x1b' ∉ last.toList) (hReturn : '\r' ∉ last.toList) :
    ∃ before, a.text = before ++ "\n" ++ last ++ "\n" := by
  have hPlain : plainLine "" = "" := plainLine_of_notMem (by decide)
  have hText : (String.join (a.lines.map fun line => plainLine line ++ "\n")).toList =
      (String.join (lines.map fun line => plainLine line ++ "\n")).toList ++ '\n' :: (last.toList ++ ['\n']) := by
    rw [h, List.map_append, List.map_cons, List.map_singleton, hPlain, plainLine_of_notMem hEscape]
    simp
  have hRest : dropReturns (last.toList ++ ['\n']) = last.toList ++ ['\n'] := by
    apply dropReturns_of_notMem
    rw [List.mem_append, not_or]
    exact ⟨hReturn, by decide⟩
  obtain ⟨before, hBefore⟩ := exists_dropReturns_append
    (String.join (lines.map fun line => plainLine line ++ "\n")).toList (last.toList ++ ['\n'])
  refine ⟨String.ofList before, ?_⟩
  apply String.toList_injective
  rw [Answer.text, hText, hBefore, hRest]
  simp

theorem isDigit_of_mem_toString {n : Nat} {c : Char} (h : c ∈ (toString n).toList) : c.isDigit = true := by
  have hDigits : (toString n).toList = Nat.toDigits 10 n := Nat.toList_repr
  rw [hDigits] at h
  exact Nat.isDigit_of_mem_toDigits (by decide) (by decide) h

theorem notMem_totalsLine {c : Char} (hDigit : c.isDigit = false) (outcomes : List Outcome)
    (hWords : c ∉ " scenarios: ".toList ++ " passed, ".toList ++ " failed, ".toList ++ " errored, ".toList ++
      " skipped".toList) : c ∉ (totalsLine outcomes).toList := by
  have hNumber : ∀ n : Nat, c ∉ (toString n).toList := by
    intro n hMem
    rw [isDigit_of_mem_toString hMem] at hDigit
    cases hDigit
  simp only [List.mem_append, not_or] at hWords
  unfold totalsLine
  simp only [String.toList_append, List.mem_append, not_or]
  exact ⟨⟨⟨⟨⟨⟨⟨⟨⟨hNumber _, hWords.1.1.1.1⟩, hNumber _⟩, hWords.1.1.1.2⟩, hNumber _⟩, hWords.1.1.2⟩, hNumber _⟩,
    hWords.1.2⟩, hNumber _⟩, hWords.2⟩

/-! ## One call -/

theorem Session.map_case_results {s : Session σ} {host : Host σ} {queue : List Case}
    (h : (s.execute host queue).2 = .ok ()) :
    (s.execute host queue).1.results.map CaseResult.case = s.results.map CaseResult.case ++ queue := by
  induction queue generalizing s with
  | nil => exact (List.append_nil _).symm
  | cons c rest ih =>
    obtain ⟨t, next, rfl, rfl, hTurn⟩ := Session.exists_turn h
    rw [hTurn.execute_eq] at h ⊢
    rw [ih h, hTurn.results_eq, List.map_append, List.map_singleton, hTurn.decides.case_eq, List.append_assoc]
    rfl

/-- A page that shows the counts of the results, and one block for each of them. -/
structure ShowsResults (page : String) (results : List CaseResult) : Prop where
  labels_eq : Html.labels page = ["Passed", "Failed", "Errored", "Skipped"]
  numbers_eq : Html.numbers page = [toString (numberOf results .passed), toString (numberOf results .failed),
    toString (numberOf results .errored), toString (numberOf results .skipped)]
  blocks_eq : Html.results page = results.map fun r =>
    ⟨r.verdict.outcome.word, r.case.name, r.case.uri, Html.shownMessage r.verdict.message⟩

def recordOf (r : CaseResult) : Json.Recorded where
  id := r.case.id
  name := r.case.name
  uri := r.case.uri
  isOutline := r.case.isOutline
  line := r.case.span.start.line
  outcome := r.verdict.outcome.word
  message := r.verdict.message
  elapsed := r.verdict.elapsedSeconds.map Json.floatText
  stepsPassed := r.verdict.stepsPassed.map Int.ofNat
  stepsTotal := r.verdict.stepsTotal.map Int.ofNat
  scenariosPassed := r.verdict.scenariosPassed.map Int.ofNat
  scenariosTotal := r.verdict.scenariosTotal.map Int.ofNat
  location := r.location.map fun l => (l.line, (l.character : Int))

/-- A document that holds the counts of the results, and one record for each of them. -/
structure HoldsResults (document : String) (moment : Moment) (results : List CaseResult) : Prop where
  moment_eq : Json.moment? document = some moment.iso
  counts_eq : Json.counts? document = some [("passed", (numberOf results .passed : Int)),
    ("failed", (numberOf results .failed : Int)), ("errored", (numberOf results .errored : Int)),
    ("skipped", (numberOf results .skipped : Int)), ("total", (results.length : Int))]
  records_eq : Json.records? document = some (results.map recordOf)

/-- What a call leaves behind agrees with the results of its queue. -/
structure Answer.Tells (a : Answer) (o : Options) (moment : Moment) (queue : List Case) (results : List CaseResult) :
    Prop where
  cases_eq : results.map CaseResult.case = queue
  total_eq : queue.length = numberOf results .passed + numberOf results .failed + numberOf results .errored +
    numberOf results .skipped
  text_eq : ∃ before, a.text = before ++ "\n" ++ (toString queue.length ++ " scenarios: " ++
    toString (numberOf results .passed) ++ " passed, " ++ toString (numberOf results .failed) ++ " failed, " ++
    toString (numberOf results .errored) ++ " errored, " ++ toString (numberOf results .skipped) ++ " skipped") ++ "\n"
  json : o.report = .json ∨ o.report = .both →
    ∃ document, IsSaved a.files .json moment document ∧ HoldsResults document moment results
  html : o.report = .html ∨ o.report = .both → ∃ page, IsSaved a.files .html moment page ∧ ShowsResults page results
  exitCode_le : a.exitCode ≤ 1
  exitCode_eq_one_iff : a.exitCode = 1 ↔
    ∃ r ∈ results, r.verdict.outcome = .failed ∨ r.verdict.outcome = .errored

theorem outcome_entries (results : List CaseResult) :
    (results.map Entry.ofResult).map (·.outcome) = outcomesOf results := by
  rw [List.map_map]
  rfl

theorem holdsResults_document {moment : Moment} {results : List CaseResult}
    (h : (Json.document moment (results.map Entry.ofResult)).fault = none) :
    HoldsResults (Json.document moment (results.map Entry.ofResult)).text moment results := by
  have hLength : (outcomesOf results).length = results.length := List.length_map _
  refine ⟨Json.moment?_document h, ?_, ?_⟩
  · rw [Json.counts?_document h, summaryOf, outcome_entries]
    simp only [summarize, Outcome.all, List.map_cons, List.map_nil, List.cons_append, List.nil_append,
      count_outcomesOf, hLength]
    rfl
  · rw [Json.records?_document h, List.map_map]
    rfl

theorem showsResults_page {moment : Moment} {results : List CaseResult} {text : String}
    (h : Html.page moment (results.map Entry.ofResult) = .ok text) : ShowsResults text results := by
  obtain ⟨hLabels, hNumbers⟩ := Html.counts_page h
  refine ⟨hLabels, ?_, ?_⟩
  · simp only [hNumbers, outcome_entries, Outcome.all, List.map_cons, List.map_nil, count_outcomesOf]
  · rw [Html.results_page h, List.map_map]
    rfl

theorem writing_html_ok {moment : Moment} {entries : List Entry}
    (h : (Format.html.writing moment entries).fault = none) :
    Html.page moment entries = .ok (Format.html.writing moment entries).text := by
  rw [Format.writing] at h ⊢
  cases hPage : Html.page moment entries with
  | error fault =>
    rw [hPage] at h
    cases h
  | ok text => rfl

/-- Without a fault the queue has been run to its end and all reports are there. -/
theorem World.runQueue_ok {w : World} {o : Options} {crew : Crew σ} {queue : List Case}
    (h : (w.runQueue o crew queue).fault = none) :
    (crew.execute queue).2 = .ok () ∧ ∃ files,
      writeReports w.now ((crew.execute queue).1.results.map Entry.ofResult) o.report.formats w.files =
        (files, .ok ()) ∧
      w.runQueue o crew queue =
        { exitCode := if hasProblem (crew.execute queue).1.results then 1 else 0
          lines := (crew.execute queue).1.results.flatMap resultLines ++
            ["", totalsLine (outcomesOf (crew.execute queue).1.results)]
          supervisor := some (crew.supervisor (crew.execute queue).1.runner)
          files } := by
  unfold World.runQueue at h ⊢
  generalize crew.execute queue = ran at h ⊢
  obtain ⟨session, fault | done⟩ := ran
  · cases h
  · dsimp only at h ⊢
    rcases hReports : writeReports w.now (session.results.map Entry.ofResult) o.report.formats w.files with
      ⟨files, fault | written⟩
    · rw [hReports] at h
      cases h
    · exact ⟨rfl, files, rfl, rfl⟩

theorem ReportChoice.nodup_formats (choice : ReportChoice) : choice.formats.Nodup := by
  cases choice <;> decide

theorem World.runQueue_tells {w : World} {o : Options} {crew : Crew σ} {queue : List Case}
    (h : (w.runQueue o crew queue).fault = none) :
    (w.runQueue o crew queue).Tells o w.now queue (crew.execute queue).1.results := by
  obtain ⟨hExecute, files, hReports, hAnswer⟩ := World.runQueue_ok h
  rw [hAnswer]
  generalize hResults : (crew.execute queue).1.results = results at hReports ⊢
  have hCases : results.map CaseResult.case = queue := by
    rw [← hResults]
    exact Session.map_case_results hExecute
  have hLength : queue.length = results.length := by rw [← hCases, List.length_map]
  obtain ⟨hSaved, -⟩ := writeReports_ok hReports (ReportChoice.nodup_formats o.report)
  have hTotals : totalsLine (outcomesOf results) = toString queue.length ++ " scenarios: " ++
      toString (numberOf results .passed) ++ " passed, " ++ toString (numberOf results .failed) ++ " failed, " ++
      toString (numberOf results .errored) ++ " errored, " ++ toString (numberOf results .skipped) ++ " skipped" := by
    have hOutcomes : (outcomesOf results).length = queue.length := by rw [hLength, outcomesOf, List.length_map]
    unfold totalsLine
    simp only [hOutcomes, count_outcomesOf]
  constructor
  · exact hCases
  · rw [hLength]
    exact length_eq_sum results
  · rw [← hTotals]
    exact exists_text_eq rfl (notMem_totalsLine (by decide) _ (by decide +kernel))
      (notMem_totalsLine (by decide) _ (by decide +kernel))
  · intro hReport
    have hJson : Format.json ∈ o.report.formats := by
      rcases hReport with hReport | hReport <;> rw [hReport] <;> decide
    obtain ⟨hFault, hThere⟩ := hSaved .json hJson
    exact ⟨_, hThere, holdsResults_document hFault⟩
  · intro hReport
    have hHtml : Format.html ∈ o.report.formats := by
      rcases hReport with hReport | hReport <;> rw [hReport] <;> decide
    obtain ⟨hFault, hThere⟩ := hSaved .html hHtml
    exact ⟨_, hThere, showsResults_page (writing_html_ok hFault)⟩
  · dsimp only
    split <;> omega
  · dsimp only
    rw [← hasProblem_iff]
    split <;> simp [*]

/-- A call tells what became of its cases, if its settings are right, it finds a file and no fault escapes it. -/
theorem World.runWith_tells (w : World) (crewFor : RunnerSettings → Environment → Store → Crew σ)
    (arguments : List String) {o : Options} (hArguments : Request.ofArguments arguments = .run o)
    (hRun : o.listOnly = false) {settings : RunnerSettings} {env : Environment}
    (hSettings : w.settings o = .ok (settings, env)) {store : Store} {file : FeatureFile} {files : List FeatureFile}
    (hFiles : ({} : Store).parseFeatures w.files settings.base settings.patterns o.name = .ok (store, file :: files))
    (hFault : (w.runWith crewFor arguments).fault = none) :
    (w.runWith crewFor arguments).Tells o w.now (queueOf o settings (file :: files))
      ((crewFor settings env store).execute (queueOf o settings (file :: files))).1.results := by
  have hCall : w.runWith crewFor arguments =
      w.runQueue o (crewFor settings env store) (queueOf o settings (file :: files)) := by
    rw [World.runWith, hArguments]
    dsimp only
    rw [World.runOptions, hSettings]
    dsimp only
    rw [hFiles]
    dsimp only
    rw [hRun]
    rfl
  rw [hCall] at hFault ⊢
  exact World.runQueue_tells hFault

def threeScenarios : World where
  files :=
    { workingDir := { root := "/" }
      entries := [(["c"], .file (encodeUtf8 "\x7b\x7d")),
        (["a.feature"], .file (encodeUtf8 "Feature: F\nScenario: a\nScenario: b\nScenario: c"))] }
  environment := []
  system _ := .failed "there is no such file"
  now := .ofSeconds 0

/-- The second case fails, and the call is cancelled when its result is shown. -/
def cancelledCrew (settings : RunnerSettings) (env : Environment) (_ : Store) : Crew Unit where
  host :=
    { run := fun _ name =>
        ((), .ok { lines := [if name == "b" then "1 scenario (1 failed)" else "1 scenario (1 passed)"] })
      stop := id
      isStale := fun _ _ => false
      notify := fun _ result => ((), .ok (result.case.name == "b")) }
  runner := ()
  supervisor _ := { settings, environment := env }

theorem runWith_tells_of_cancelledCrew :
    ∃ o queue results,
      (threeScenarios.runWith cancelledCrew ["-c", "c", "-f", "a.feature", "--report", "both"]).Tells o
        threeScenarios.now queue results ∧
      o.report = .both ∧ queue.map Case.name = ["a", "b", "c"] ∧
      outcomesOf results = [.passed, .failed, .skipped] := by
  have hArguments : Request.ofArguments ["-c", "c", "-f", "a.feature", "--report", "both"] =
      .run { config := "c", features := ["a.feature"], report := .both } := by decide +kernel
  have hFault : (threeScenarios.runWith cancelledCrew ["-c", "c", "-f", "a.feature", "--report", "both"]).fault =
      none := by decide +kernel
  have hRun : ∃ held ∈ (threeScenarios.settings { config := "c", features := ["a.feature"], report := .both }).toOption,
      ∃ parsed ∈ (({} : Store).parseFeatures threeScenarios.files held.1.base held.1.patterns none).toOption,
      parsed.2 ≠ [] ∧
      (queueOf { features := ["a.feature"] } held.1 parsed.2).map Case.name = ["a", "b", "c"] ∧
      outcomesOf ((cancelledCrew held.1 held.2 parsed.1).execute
        (queueOf { features := ["a.feature"] } held.1 parsed.2)).1.results = [.passed, .failed, .skipped] := by
    decide +kernel
  obtain ⟨⟨settings, env⟩, hSettings, ⟨store, files⟩, hFiles, hSome, hNames, hOutcomes⟩ := hRun
  cases files with
  | nil => exact absurd rfl hSome
  | cons file files =>
    have hTells := threeScenarios.runWith_tells cancelledCrew _ hArguments rfl (eq_ok_of_mem_toOption hSettings)
      (eq_ok_of_mem_toOption hFiles) hFault
    exact ⟨_, _, _, hTells, rfl, hNames, hOutcomes⟩

end ScenarioRunner.CommandLine
