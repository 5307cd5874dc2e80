import ScenarioRunner.Run.Command
import ScenarioRunner.Text.Lines
import ScenarioRunner.Text.Utf8

/-!
# Supervising children

A supervisor holds at most one child at a time. Before a launch the held child is stopped: it is asked to terminate, and
killed if it has not ended after a while. A run reads all lines of its child, from both of its pipes at once, and waits
for it to end. Main statement: in whatever order the pipes take turns, the lines of each arrive in their order.
-/

namespace ScenarioRunner.Run

open ScenarioRunner.Settings
open ScenarioRunner.Text

set_option autoImplicit false

inductive Pipe where
  | output
  | errors
deriving DecidableEq

structure Child where
  stdout : List UInt8 := []
  stderr : List UInt8 := []
  /-- The pipes from which the next lines come. What is left then comes from the output first. -/
  turns : List Pipe := []
  /-- The child has ended from the start. -/
  hasExited : Bool := false
  /-- The child does not end when it is asked to terminate. -/
  isStubborn : Bool := false
  /-- The run is interrupted once all output of the child has been read. -/
  interrupts : Bool := false
deriving DecidableEq

/-- The lines of a pipe; invalid bytes are replaced. -/
def pipeLines (bytes : List UInt8) : List String :=
  (streamLines (decodeUtf8 bytes)).map String.ofList

/-- A turn of a pipe without lines is passed over. -/
def interleave : List Pipe → List String → List String → List (Pipe × String)
  | .output :: turns, line :: output, errors => (.output, line) :: interleave turns output errors
  | .errors :: turns, output, line :: errors => (.errors, line) :: interleave turns output errors
  | _ :: turns, output, errors => interleave turns output errors
  | [], output, errors => output.map (.output, ·) ++ errors.map (.errors, ·)

def Child.arrivals (c : Child) : List (Pipe × String) :=
  interleave c.turns (pipeLines c.stdout) (pipeLines c.stderr)

def linesOn (pipe : Pipe) (arrivals : List (Pipe × String)) : List String :=
  (arrivals.filter (·.1 = pipe)).map (·.2)

theorem linesOn_interleave (turns : List Pipe) (output errors : List String) :
    linesOn .output (interleave turns output errors) = output ∧
      linesOn .errors (interleave turns output errors) = errors := by
  induction turns, output, errors using interleave.induct with
  | case1 turns line output errors ih => simpa [interleave, linesOn] using ih
  | case2 turns output line errors ih => simpa [interleave, linesOn] using ih
  | case3 pipe turns output errors hOutput hErrors ih => rwa [interleave] <;> assumption
  | case4 output errors =>
    have hAll (lines : List String) : lines.filter (fun _ => true) = lines := List.filter_eq_self.mpr fun _ _ => rfl
    have hNone (lines : List String) : lines.filter (fun _ => false) = [] := List.filter_eq_nil_iff.mpr (by simp)
    simp [interleave, linesOn, List.filter_map, Function.comp_def, hAll, hNone]

theorem linesOn_arrivals (c : Child) :
    linesOn .output c.arrivals = pipeLines c.stdout ∧ linesOn .errors c.arrivals = pipeLines c.stderr :=
  linesOn_interleave c.turns _ _

inductive Signal where
  | terminate
  | kill
  | wait
  /-- A wait for at most five seconds. -/
  | waitBriefly
deriving DecidableEq, Repr

structure Process where
  child : Child
  isRunning : Bool
  signals : List Signal := []
deriving DecidableEq

def Process.ofChild (child : Child) : Process :=
  { child, isRunning := !child.hasExited }

def Process.stop (p : Process) : Process :=
  if !p.isRunning then p
  else
    { p with
      isRunning := false
      signals := p.signals ++ [.terminate, .waitBriefly] ++ if p.child.isStubborn then [.kill] else [] }

def Process.await (p : Process) : Process :=
  { p with isRunning := false, signals := p.signals ++ [.wait] }

inductive LaunchResult where
  | started (child : Child)
  /-- The system could not start the command. -/
  | failed (text : String)
  /-- The command was refused before the system was asked. -/
  | refused (text : String)
deriving DecidableEq

structure Supervisor where
  settings : RunnerSettings
  environment : Environment
  /-- All processes so far, the oldest first. -/
  processes : List Process := []
  /-- The place of the held process among them. -/
  held : Option Nat := none
  launches : List Launch := []

def Supervisor.adopt (s : Supervisor) (child : Child) : Supervisor :=
  { s with processes := s.processes ++ [.ofChild child], held := some s.processes.length }

/-- Stops the held process. It stays held until its run lets it go. -/
def Supervisor.kill (s : Supervisor) : Supervisor :=
  match s.held with
  | none => s
  | some i => { s with processes := s.processes.modify i Process.stop }

/-- The call that stops the held process, with its answer. A process that has ended is left alone. -/
def Supervisor.callKill (s : Supervisor) : Supervisor × Bool :=
  match s.held with
  | none => (s, true)
  | some i => if (s.processes[i]?.map Process.isRunning) = some true then (s.kill, true) else (s, true)

def Supervisor.await (s : Supervisor) (i : Nat) : Supervisor :=
  { s with processes := s.processes.modify i Process.await }

/-- Lets a process go if it is still the held one. -/
def Supervisor.release (s : Supervisor) (i : Nat) : Supervisor :=
  if s.held = some i then { s with held := none } else s

structure RunOutput where
  lines : List String
  isInterrupted : Bool := false
deriving DecidableEq

/-- What is done with each line as it is read. It may use the supervisor and fail. -/
abbrev OnLine (α : Type) :=
  Pipe → String → Supervisor × α → (Supervisor × α) × Except Fault Unit

def ignoreLines {α : Type} : OnLine α :=
  fun _ _ state => (state, .ok ())

/-- Hands on the lines in order, up to the first failure at a line of the output. A failure at a line of the errors stays
with the reader of the errors, which ends: no line of theirs is handed on after it. -/
def handLines {α : Type} (onLine : OnLine α) :
    Bool → List (Pipe × String) → Supervisor × α → (Supervisor × α) × Except Fault Unit
  | _, [], state => (state, .ok ())
  | readsErrors, (.output, line) :: rest, state =>
    match onLine .output line state with
    | (state, .ok ()) => handLines onLine readsErrors rest state
    | (state, .error fault) => (state, .error fault)
  | readsErrors, (.errors, line) :: rest, state =>
    if readsErrors then
      let (state, result) := onLine .errors line state
      handLines onLine result.isOk rest state
    else handLines onLine false rest state

theorem handLines_ignoreLines {α : Type} (readsErrors : Bool) (arrivals : List (Pipe × String))
    (state : Supervisor × α) : handLines ignoreLines readsErrors arrivals state = (state, .ok ()) := by
  induction arrivals generalizing readsErrors with
  | nil => rfl
  | cons arrival rest ih =>
    obtain ⟨_ | _, line⟩ := arrival
    · exact ih readsErrors
    · cases readsErrors with
      | true => exact ih true
      | false => exact ih false

/-- Runs a scenario. A launch that fails is reported as the only line of its output. -/
def Supervisor.run {α : Type} (s : Supervisor) (system : Launch → LaunchResult) (name : String)
    (onLine : OnLine α) (acc : α) : (Supervisor × α) × Except Fault RunOutput :=
  let launch := launchFor s.settings s.environment name
  let stopped := s.kill
  let asked := { stopped with launches := stopped.launches ++ [launch] }
  match system launch with
  | .refused text => ((asked, acc), .error (.launchRefused text))
  | .failed text => ((asked, acc), .ok { lines := ["Could not start cucumber: " ++ text] })
  | .started child =>
    let i := asked.processes.length
    match handLines onLine true child.arrivals (asked.adopt child, acc) with
    | (state, .error fault) => (state, .error fault)
    | ((s, acc), .ok ()) =>
      let s := if child.interrupts then s.kill else s
      (((s.await i).release i, acc), .ok ⟨pipeLines child.stdout, child.interrupts⟩)

end ScenarioRunner.Run
