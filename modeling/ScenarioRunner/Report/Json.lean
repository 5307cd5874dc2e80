import ScenarioRunner.Calendar.Moment
import ScenarioRunner.Decimal.Shortest
import ScenarioRunner.Report.Entry
import ScenarioRunner.Report.Writing

/-!
# JSON reports

The same results as data. Members stand on lines of their own, indented by two spaces for each level. A document is
written part by part, so that what comes before a number with too many digits is there.
-/

namespace ScenarioRunner.Report.Json

open ScenarioRunner.Calendar

set_option autoImplicit false

inductive Data where
  | null
  | bool (b : Bool)
  | int (n : Int)
  | float (x : Float)
  | text (s : String)
  | list (items : List Data)
  | object (members : List (String × Data))

/-- Quotes, backslashes and controls are escaped; all other characters stand for themselves. -/
def escapeChar (c : Char) : List Char :=
  match c with
  | '"' => ['\\', '"']
  | '\\' => ['\\', '\\']
  | '\n' => ['\\', 'n']
  | '\r' => ['\\', 'r']
  | '\t' => ['\\', 't']
  | '\x08' => ['\\', 'b']
  | '\x0c' => ['\\', 'f']
  | c => if c.toNat < 32 then '\\' :: 'u' :: Text.hexDigits 4 c.toNat else [c]

def quote (s : String) : String :=
  String.ofList ('"' :: s.toList.flatMap escapeChar ++ ['"'])

def floatText (x : Float) : String :=
  match Decimal.Magnitude.ofFloat x with
  | .infinite => if Decimal.isNegative x then "-Infinity" else "Infinity"
  | .notANumber => "NaN"
  | .finite _ _ => Decimal.text x

def newline (level : Nat) : String :=
  "\n" ++ String.ofList (List.replicate (2 * level) ' ')

/-- Items between brackets, each on a line of its own; without items the brackets stay together. -/
def bracketed (opening closing : String) (level : Nat) (items : List Writing) : Writing :=
  if items.isEmpty then .ofText (opening ++ closing)
  else
    Writing.ofText (opening ++ newline (level + 1)) ++
      Writing.join (items.intersperse (.ofText ("," ++ newline (level + 1)))) ++
      Writing.ofText (newline level ++ closing)

mutual

def Data.render (level : Nat) : Data → Writing
  | .null => .ofText "null"
  | .bool b => .ofText (if b then "true" else "false")
  | .int n => .whole (Decimal.writeNumber n)
  | .float x => .ofText (floatText x)
  | .text s => .ofText (quote s)
  | .list items => bracketed "[" "]" level (renderItems (level + 1) items)
  | .object members => bracketed "\x7b" "\x7d" level (renderMembers (level + 1) members)

def renderItems (level : Nat) : List Data → List Writing
  | [] => []
  | d :: rest => d.render level :: renderItems level rest

def renderMembers (level : Nat) : List (String × Data) → List Writing
  | [] => []
  | (name, d) :: rest => (.ofText (quote name ++ ": ") ++ d.render level) :: renderMembers level rest

end

def Data.optional {α : Type} (f : α → Data) : Option α → Data
  | some x => f x
  | none => .null

def locationData (location : Int × Int) : Data :=
  .object [("line", .int location.1), ("character", .int location.2)]

def entryData (e : Entry) : Data :=
  .object [
    ("id", .text e.id),
    ("name", .text e.name),
    ("uri", .text e.uri),
    ("is_outline", .bool e.isOutline),
    ("line", .int e.line),
    ("outcome", .text e.outcome.word),
    ("message", .optional .text e.message),
    ("elapsed_seconds", .optional .float e.elapsedSeconds),
    ("steps_passed", .optional .int e.stepsPassed),
    ("steps_total", .optional .int e.stepsTotal),
    ("scenarios_passed", .optional .int e.scenariosPassed),
    ("scenarios_total", .optional .int e.scenariosTotal),
    ("location", .optional locationData e.location)]

def reportData (moment : Moment) (entries : List Entry) : Data :=
  .object [
    ("generated", .text moment.iso),
    ("summary", .object ((summaryOf entries).map fun count => (count.1, .int count.2))),
    ("results", .list (entries.map entryData))]

def document (moment : Moment) (entries : List Entry) : Writing :=
  (reportData moment entries).render 0

end ScenarioRunner.Report.Json
