import ScenarioRunner.Text.Lines
import ScenarioRunner.Text.TerminalCodes
import ScenarioRunner.Transcript.Duration
import ScenarioRunner.Transcript.FailureBlock

/-!
# Reading a transcript

One pass over the console output of a scenario run. The reader keeps the message of the first failing step and the
first complete summary. Output may arrive in chunks of any size: a line is read once its line feed has arrived.
-/

namespace ScenarioRunner.Transcript

open ScenarioRunner.Text

set_option autoImplicit false

/-- Each mode has what is collected in it and nothing else. So the type alone says that a summary is retained just when
reading is done, that one or two lines wait for a duration, and that failing steps are collected in their section only. -/
inductive Mode where
  | idle
  /-- In a section of failures, with the lines of the failing step once it has come, the last one first. -/
  | failureCapture (block : Option (List (List Char)))
  /-- After a scenario count, and the step count if it has come. -/
  | summary (scenarios : List Char) (steps : Option (List Char))
  | done (summary : List Char)
deriving DecidableEq

structure Reader where
  mode : Mode := .idle
  failureMessage : Option (List Char) := none
  /-- The line that is not complete yet. -/
  held : List Char := []
deriving DecidableEq

def hasDuration (s : List Char) : Bool :=
  (Duration.find? s).isSome

def startsWithCount (noun : String) (s : List Char) : Bool :=
  (CountPhrase.read? noun s).isSome

def Reader.readIdle (r : Reader) (line : List Char) : Reader :=
  let trimmed := trim line
  if isSectionMarker trimmed then { r with mode := .failureCapture none }
  else if hasDuration trimmed then { r with mode := .done trimmed }
  else if startsWithCount "scenario" trimmed then { r with mode := .summary trimmed none }
  else { r with mode := .idle }

/-- The message of a block: its lines without surrounding blanks, if anything is left. -/
def blockMessage (block : Option (List (List Char))) : Option (List Char) :=
  match trim (joinLines (block.getD []).reverse) with
  | [] => none
  | message => some message

def Reader.endFailure (r : Reader) (block : Option (List (List Char))) : Reader :=
  { r with mode := .idle, failureMessage := r.failureMessage.or (blockMessage block) }

def Reader.readFailure (r : Reader) (block : Option (List (List Char))) (line : List Char) : Reader :=
  if isSummaryOpening (trim line) then (r.endFailure block).readIdle line
  else match block with
    | none => if isFailedStep line then { r with mode := .failureCapture (some []) } else r
    | some lines =>
      if isNextStep line || isNumberedScenario line then r.endFailure block
      else { r with mode := .failureCapture (some (trim line :: lines)) }

/-- A line that cannot go on with the summary is read as ordinary output. -/
def Reader.readSummary (r : Reader) (scenarios : List Char) (steps : Option (List Char)) (line : List Char) :
    Reader :=
  let trimmed := trim line
  if hasDuration trimmed then
    { r with mode := .done (joinLines (scenarios :: steps.toList ++ [trimmed])) }
  else if steps.isNone && startsWithCount "step" trimmed then { r with mode := .summary scenarios (some trimmed) }
  else r.readIdle line

/-- A line loses its terminal codes and its trailing carriage returns before it is read. -/
def cleanLine (line : List Char) : List Char :=
  dropTrailing (· == '\r') (stripCodes line)

def Reader.readLine (r : Reader) (line : List Char) : Reader :=
  match r.mode with
  | .idle => r.readIdle (cleanLine line)
  | .failureCapture block => r.readFailure block (cleanLine line)
  | .summary scenarios steps => r.readSummary scenarios steps (cleanLine line)
  | .done _ => r

/-- Raw output as it arrives. What stands after its last line feed is held back. -/
def Reader.feed (r : Reader) (chunk : String) : Reader :=
  let output := r.held ++ chunk.toList
  { (endedLines output).foldl Reader.readLine r with held := openLine output }

/-- One line feed at the end of complete lines is not a line of its own. -/
def completeLines (s : List Char) : List (List Char) :=
  let cut := pieces '\n' s
  if cut.length > 1 && cut.getLast? == some [] then cut.dropLast else cut

def Reader.feedLine (r : Reader) (text : String) : Reader :=
  (completeLines text.toList).foldl Reader.readLine r

/-- The output has ended: what was held back is a line, and a block or summary that is still open ends. -/
def Reader.close (r : Reader) : Reader :=
  let r := if r.held.isEmpty then r else { r with held := [] }.readLine r.held
  match r.mode with
  | .failureCapture block => r.endFailure block
  | .summary scenarios steps => { r with mode := .done (joinLines (scenarios :: steps.toList)) }
  | _ => r

end ScenarioRunner.Transcript
