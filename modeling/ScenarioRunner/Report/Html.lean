import ScenarioRunner.Calendar.Moment
import ScenarioRunner.Decimal.Limit
import ScenarioRunner.Report.Entry

/-!
# HTML reports

A page with the counts of all outcomes and a block for each result. Text of results is escaped wherever it stands. There
is no page if one of its numbers has too many digits.
-/

namespace ScenarioRunner.Report.Html

open ScenarioRunner.Calendar

set_option autoImplicit false

def escapeChar : Char → List Char
  | '&' => "&amp;".toList
  | '<' => "&lt;".toList
  | '>' => "&gt;".toList
  | '\'' => "&#39;".toList
  | '"' => "&#34;".toList
  | c => [c]

def escape (s : String) : String :=
  String.ofList (s.toList.flatMap escapeChar)

def styleRules : List (String × String) := [
  ("body", "font-family: Arial, sans-serif; margin: 20px; background-color: #f5f5f5;"),
  (".container", "max-width: 1400px; margin: 0 auto;"),
  (".header", "background: #2d3e50; color: white; padding: 30px; border-radius: 8px; margin-bottom: 30px;"),
  (".header h1", "margin: 0; font-size: 2.2em;"),
  (".summary", "display: flex; gap: 20px; margin: 20px 0;"),
  (".summary-item", "flex: 1; background: white; padding: 20px; border-radius: 8px; text-align: center;"),
  (".summary-item.passed", "background: #d4edda; color: #155724;"),
  (".summary-item.failed", "background: #f8d7da; color: #721c24;"),
  (".summary-item.errored", "background: #fff3cd; color: #856404;"),
  (".summary-item.skipped", "background: #e2e3e5; color: #383d41;"),
  (".summary-item .number", "font-size: 2.5em; font-weight: bold;"),
  (".scenario", "background: white; margin: 15px 0; padding: 15px 20px; border-radius: 8px;"),
  (".scenario.passed", "border-left: 5px solid #28a745;"),
  (".scenario.failed", "border-left: 5px solid #dc3545;"),
  (".scenario.errored", "border-left: 5px solid #ffc107;"),
  (".scenario.skipped", "border-left: 5px solid #6c757d;"),
  (".timing", "color: #6c757d; font-size: 0.9em; float: right;"),
  ("pre", "white-space: pre-wrap; word-wrap: break-word; background: #f8f9fa; padding: 10px; border-radius: 3px;")]

def styleSheet : String :=
  String.join (styleRules.map fun rule => "        " ++ rule.1 ++ " \x7b " ++ rule.2 ++ " \x7d\n")

def pageHead (moment : Moment) : String :=
  "\n<!DOCTYPE html>\n<html>\n<head>\n    <title>Cucumber Run Report</title>\n    <style>\n" ++ styleSheet ++
    "    </style>\n</head>\n<body>\n    <div class=\"container\">\n        <div class=\"header\">\n" ++
    "            <h1>Cucumber Run Report</h1>\n            <p>Generated: " ++ moment.readable ++
    "</p>\n        </div>\n\n"

def outcomeTitle : Outcome → String
  | .passed => "Passed"
  | .failed => "Failed"
  | .errored => "Errored"
  | .skipped => "Skipped"

def summaryItem (outcomes : List Outcome) (outcome : Outcome) : String :=
  "\n            <div class=\"summary-item " ++ outcome.word ++ "\">\n                <div class=\"number\">" ++
    toString (outcomes.count outcome) ++ "</div>\n                <div class=\"label\">" ++
    outcomeTitle outcome ++ "</div>\n            </div>\n            "

def summaryBlock (outcomes : List Outcome) : String :=
  "        <div class=\"summary\">\n            " ++ String.join (Outcome.all.map (summaryItem outcomes)) ++
    "\n        </div>\n\n"

/-- A number that is missing is shown by name. -/
def numberText (n : Option Int) : Except Fault String :=
  match n with
  | some n => Decimal.writeNumber n
  | none => .ok "None"

def timing (seconds : Option Float) : String :=
  match seconds with
  | some x => "\n            <span class=\"timing\">" ++ Decimal.fixed 3 x ++ "s</span>\n            "
  | none => ""

def counts (passed total : Option Int) (what : String) : Except Fault String := do
  return "(" ++ (← numberText passed) ++ "/" ++ (← numberText total) ++ " " ++ what ++ " passed)"

def stepCounts (e : Entry) : Except Fault String :=
  if e.stepsTotal.isSome then counts e.stepsPassed e.stepsTotal "steps" else .ok ""

/-- Rows are counted for whole outlines only. -/
def exampleCounts (e : Entry) : Except Fault String :=
  if e.scenariosTotal.isSome && e.isOutline then counts e.scenariosPassed e.scenariosTotal "examples" else .ok ""

def messageBlock (message : Option String) : String :=
  match message with
  | none => ""
  | some "" => ""
  | some text => "\n            <pre>" ++ escape text ++ "</pre>\n            "

def entryBlock (e : Entry) : Except Fault String := do
  return "\n        <div class=\"scenario " ++ e.outcome.word ++ "\">\n            " ++
    timing e.elapsedSeconds ++ "\n            <strong>" ++ escape e.name ++
    "</strong>\n            <p>" ++ escape e.uri ++ ":" ++ (← Decimal.writeNumber (e.line + 1)) ++
    " &mdash; " ++ e.outcome.word ++ "\n            " ++ (← stepCounts e) ++ "\n            " ++
    (← exampleCounts e) ++ "\n            </p>\n            " ++ messageBlock e.message ++
    "\n        </div>\n        "

def page (moment : Moment) (entries : List Entry) : Except Fault String := do
  let blocks ← entries.mapM entryBlock
  return pageHead moment ++ summaryBlock (entries.map (·.outcome)) ++ "        " ++ String.join blocks ++
    "\n    </div>\n</body>\n</html>"

end ScenarioRunner.Report.Html
