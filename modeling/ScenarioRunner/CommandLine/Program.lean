import ScenarioRunner.CommandLine.Options
import ScenarioRunner.Report.Format
import ScenarioRunner.Run.Selection
import ScenarioRunner.Run.Session
import ScenarioRunner.Text.TerminalCodes

/-!
# The program

One call of the command line, as a function of the files, the environment, the clock and what launching gives.
-/

namespace ScenarioRunner.CommandLine

open ScenarioRunner.Calendar
open ScenarioRunner.Feature
open ScenarioRunner.Files
open ScenarioRunner.Report
open ScenarioRunner.Run
open ScenarioRunner.Settings

set_option autoImplicit false

structure World where
  files : FileTree
  environment : Environment
  system : Launch → LaunchResult
  now : Moment

/-- What a call leaves behind. A fault that escapes makes the exit code one. -/
structure Answer where
  exitCode : Nat
  fault : Option Fault := none
  lines : List String := []
  supervisor : Option Supervisor := none
  files : FileTree

/-- Settings of a wrong shape and files that cannot be opened end the program without a fault. -/
def isReported : Fault → Bool
  | .settings _ => true
  | .file _ => true
  | _ => false

def plainLine (line : String) : String :=
  String.ofList (Text.removeCodes Text.controlCode line.toList)

def outcomeLabel (outcome : Outcome) : String :=
  String.ofList ((outcome.word.toList.map Char.toUpper) ++ List.replicate (8 - outcome.word.length) ' ')

def resultLine (r : CaseResult) : String :=
  let timing := (r.verdict.elapsedSeconds.map fun x => " (" ++ Decimal.fixed 3 x ++ "s)").getD ""
  outcomeLabel r.verdict.outcome ++ " " ++ r.case.name ++ timing

def locationText (location : Option Location) : Except Fault String := do
  match location with
  | none => return ""
  | some l => return "line " ++ (← Decimal.writeNumber (l.line + 1)) ++ ": "

def problemLines (r : CaseResult) : Except Fault (List String) := do
  match r.verdict.message with
  | none => return []
  | some message =>
    if !r.verdict.isProblem || message.isEmpty then return []
    let text := (← locationText r.location) ++ message
    return (Text.messageLines text.toList).map fun line => "         " ++ String.ofList line

/-- The line of a result comes even if the lines of its problem cannot be written. -/
def resultLines (r : CaseResult) : List String :=
  resultLine r :: (problemLines r).toOption.getD []

/-- What goes wrong when a result is shown. Showing never cancels a run. -/
def notifyResult (r : CaseResult) : Except Fault Bool := do
  let _ ← problemLines r
  return false

def totalsLine (outcomes : List Outcome) : String :=
  let count (outcome : Outcome) : String := toString (outcomes.count outcome)
  toString outcomes.length ++ " scenarios: " ++ count .passed ++ " passed, " ++ count .failed ++ " failed, " ++
    count .errored ++ " errored, " ++ count .skipped ++ " skipped"

def listing (files : List FeatureFile) : List String :=
  files.flatMap fun file => file.uri :: match file.root with
    | some suite => suite.describe 1
    | none => []

def ReportChoice.formats : ReportChoice → List Format
  | .html => [.html]
  | .json => [.json]
  | .both => [.html, .json]
  | .none => []

def writeReports (now : Moment) (entries : List Entry) : List Format → FileTree → FileTree × Except Fault Unit
  | [], files => (files, .ok ())
  | format :: rest, files =>
    match format.save files defaultDirectory now entries with
    | (files, .ok _) => writeReports now entries rest files
    | (files, .error fault) => (files, .error fault)

def hasProblem (results : List CaseResult) : Bool :=
  results.any fun r => r.verdict.isProblem

def World.settings (w : World) (o : Options) : Except Fault (RunnerSettings × Environment) := do
  let (loaded, result) := Settings.load w.files w.environment (Path.ofText o.config) o.environment
  let settings ← RunnerSettings.ofSettings w.files loaded.environment (← result) w.files.workingDir
  return ({ settings with
    features := if o.features.isEmpty then settings.features else o.features
    patterns := if o.features.isEmpty then settings.patterns else o.features
    aggregateOutlines := settings.aggregateOutlines || o.aggregateOutlines }, loaded.environment)

/-- Who runs the cases of a call. The call may be cancelled before its first case. -/
structure Crew (σ : Type) where
  host : Host σ
  runner : σ
  isCancelled : Bool := false
  supervisor : σ → Supervisor

def World.crew (w : World) (settings : RunnerSettings) (env : Environment) (store : Store) : Crew Supervisor where
  host :=
    { supervisorRunner w.system with
      isStale := fun _ => store.isStale
      notify := fun s r => (s, notifyResult r) }
  runner := { settings, environment := env }
  supervisor := id

section

variable {σ : Type}

def Crew.execute (crew : Crew σ) (queue : List Case) : Session σ × Except Fault Unit :=
  Session.execute crew.host { runner := crew.runner, isCancelled := crew.isCancelled } queue

def World.runQueue (w : World) (o : Options) (crew : Crew σ) (queue : List Case) : Answer :=
  let (session, result) := crew.execute queue
  let lines := session.results.flatMap resultLines
  let supervisor := some (crew.supervisor session.runner)
  let failed (fault : Fault) (files : FileTree) : Answer :=
    { exitCode := 1, fault := some fault, lines, supervisor, files }
  match result with
  | .error fault => failed fault w.files
  | .ok () =>
    match writeReports w.now (session.results.map Entry.ofResult) o.report.formats w.files with
    | (files, .error fault) => failed fault files
    | (files, .ok ()) =>
      { exitCode := if hasProblem session.results then 1 else 0
        lines := lines ++ ["", totalsLine (outcomesOf session.results)]
        supervisor
        files }

def queueOf (o : Options) (settings : RunnerSettings) (files : List FeatureFile) : List Case :=
  { filter := o.name, aggregatesOutlines := settings.aggregateOutlines : Selection }.collect files

def World.runOptions (w : World) (crewFor : RunnerSettings → Environment → Store → Crew σ) (o : Options) : Answer :=
  match w.settings o with
  | .error fault => { exitCode := 1, fault := if isReported fault then none else some fault, files := w.files }
  | .ok (settings, env) =>
    match ({} : Store).parseFeatures w.files settings.base settings.patterns o.name with
    | .error fault => { exitCode := 1, fault := some fault, files := w.files }
    | .ok (_, []) => { exitCode := 0, files := w.files }
    | .ok (store, files) =>
      if o.listOnly then { exitCode := 0, lines := listing files, files := w.files }
      else w.runQueue o (crewFor settings env store) (queueOf o settings files)

end

def versionLine : String := "main, version 1.0.0"

def usageLine : String := "Usage: main [OPTIONS]"

/-- One call, with whoever runs its cases. Usage errors have an exit code of their own. -/
def World.runWith {σ : Type} (w : World) (crewFor : RunnerSettings → Environment → Store → Crew σ)
    (arguments : List String) : Answer :=
  match Request.ofArguments arguments with
  | .usageError => { exitCode := 2, files := w.files }
  | .version => { exitCode := 0, lines := [versionLine], files := w.files }
  | .help => { exitCode := 0, lines := [usageLine], files := w.files }
  | .run options => w.runOptions crewFor options

def World.run (w : World) (arguments : List String) : Answer :=
  w.runWith w.crew arguments

def dropReturns : List Char → List Char
  | '\r' :: '\n' :: s => '\n' :: dropReturns s
  | c :: s => c :: dropReturns s
  | [] => []

def Answer.text (a : Answer) : String :=
  String.ofList (dropReturns (String.join (a.lines.map fun line => plainLine line ++ "\n")).toList)

end ScenarioRunner.CommandLine
