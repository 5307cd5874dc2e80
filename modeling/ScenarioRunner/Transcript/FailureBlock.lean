import ScenarioRunner.Text.Blank
import ScenarioRunner.Text.Digit
import ScenarioRunner.Text.Lead
import ScenarioRunner.Text.Word
import ScenarioRunner.Transcript.CountPhrase

/-!
# Lines around a failure

A section of failures opens with a marker. Inside it, the first failing step starts the message, and the next step,
the next numbered scenario or the summary ends it.
-/

namespace ScenarioRunner.Transcript

open ScenarioRunner.Text

set_option autoImplicit false

def isSectionMarker (trimmed : List Char) : Bool :=
  trimmed == "Failures:".toList || trimmed == "Warnings:".toList

def afterMark? (marks : List Char) : List Char → Option (List Char)
  | c :: s => if marks.contains c then after? [' '] s else none
  | [] => none

def isFailedStep (line : List Char) : Bool :=
  (afterMark? ['✖', '×', '?'] (trimLeft line)).isSome

def stepKeywords : List String :=
  ["Given", "When", "Then", "And", "But", "Before", "After"]

def startsWithWord (word s : List Char) : Bool :=
  match after? word s with
  | some rest => endsWord rest
  | none => false

def isNextStep (line : List Char) : Bool :=
  match afterMark? ['-', '✔', '√', '?', '✖', '×'] (trimLeft line) with
  | some s => stepKeywords.any fun word => startsWithWord word.toList s
  | none => false

def isNumberedScenario (line : List Char) : Bool :=
  match run? isDigit (trimLeft line) with
  | some (_, s) => (after? ") Scenario".toList s).isSome
  | none => false

/-- Only a count with its breakdown, or a count of nothing, ends a failure block. -/
def isSummaryOpening (trimmed : List Char) : Bool :=
  match CountPhrase.read? "scenario" trimmed with
  | some (phrase, _) => phrase.breakdown.isSome || trimmed == "0 scenarios".toList
  | none => false

end ScenarioRunner.Transcript
