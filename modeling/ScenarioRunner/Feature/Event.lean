import ScenarioRunner.Feature.Position
import ScenarioRunner.Text.Blank
import ScenarioRunner.Text.Lead
import ScenarioRunner.Text.Lines

/-!
# Events of a feature file

A feature file is read line by line. A line is a header of a feature, a scenario or a block of examples, a row of the
block of examples that it stands in, or nothing of interest. Of the first three a line is the first one that fits.
-/

namespace ScenarioRunner.Feature

open ScenarioRunner.Text

set_option autoImplicit false

inductive EventKind where
  | feature (name : String)
  | scenario (name : String) (isOutline : Bool)
  | examples
  | tableRow (cells : List String)
deriving DecidableEq, Repr

structure Event where
  line : Nat
  width : Nat
  kind : EventKind
deriving DecidableEq, Repr

def Event.span (e : Event) : Span :=
  Span.ofLine e.line e.width

def trimmedText (s : List Char) : String :=
  String.ofList (trim s)

/-- The name after a keyword. Something must follow the keyword, if only a blank. -/
def nameAfter? (keyword : String) (s : List Char) : Option String :=
  match after? keyword.toList s with
  | none => none
  | some [] => none
  | some rest => some (trimmedText rest)

/-- The text between the first and the last pipe of a line that starts and ends with different ones. -/
def insidePipes? (s : List Char) : Option (List Char) :=
  match s with
  | '|' :: rest => if rest.getLast? == some '|' then some rest.dropLast else none
  | _ => none

def cellsOf? (s : List Char) : Option (List String) :=
  (insidePipes? (trimRight s)).map fun inside => (pieces '|' inside).map trimmedText

def EventKind.ofLine? (inExamples : Bool) (line : List Char) : Option EventKind :=
  let s := trimLeft line
  match nameAfter? "Feature:" s with
  | some name => some (.feature name)
  | none =>
    match nameAfter? "Scenario:" s with
    | some name => some (.scenario name false)
    | none =>
      match nameAfter? "Scenario Outline:" s with
      | some name => some (.scenario name true)
      | none =>
        if (after? "Examples:".toList s).isSome then some .examples
        else if inExamples then (cellsOf? s).map .tableRow
        else none

/-- A block of examples lasts until the next other header. -/
def EventKind.keepsExamples : EventKind → Bool
  | .examples => true
  | .tableRow _ => true
  | _ => false

def scanLines (inExamples : Bool) (number : Nat) : List (List Char) → List Event
  | [] => []
  | raw :: rest =>
    let line := dropTrailing (· == '\r') raw
    match EventKind.ofLine? inExamples line with
    | none => scanLines inExamples (number + 1) rest
    | some kind => ⟨number, line.length, kind⟩ :: scanLines kind.keepsExamples (number + 1) rest

def scan (text : String) : List Event :=
  scanLines false 0 (pieces '\n' text.toList)

end ScenarioRunner.Feature
