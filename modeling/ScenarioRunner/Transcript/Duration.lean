import ScenarioRunner.Decimal.Double
import ScenarioRunner.Decimal.Limit
import ScenarioRunner.Text.Lead

/-!
# Durations

A run ends its summary with its duration, such as `0m01.250s (executing steps: 0m01.000s)`. The first of the two
times counts; both must be there.
-/

namespace ScenarioRunner.Transcript

open ScenarioRunner.Text

set_option autoImplicit false

/-- The digits of the minutes, and those of the seconds before and after the point. -/
structure Duration where
  minutes : List Char
  seconds : List Char
  fraction : List Char
deriving DecidableEq

def Duration.readTime? (s : List Char) : Option (Duration × List Char) := do
  let (minutes, s) ← run? isDigit s
  let s ← after? ['m'] s
  let (seconds, s) ← run? isDigit s
  match after? ['.'] s with
  | none => return (⟨minutes, seconds, []⟩, s)
  | some s =>
    let (fraction, s) ← run? isDigit s
    return (⟨minutes, seconds, fraction⟩, s)

def Duration.read? (s : List Char) : Option Duration := do
  let (total, s) ← Duration.readTime? s
  let s ← after? "s (executing steps: ".toList s
  let (_, s) ← Duration.readTime? s
  let _ ← after? "s)".toList s
  return total

/-- The first duration in a text. If none starts with a run of digits, none starts inside the run. -/
def Duration.find? : List Char → Option Duration
  | [] => none
  | c :: s =>
    match Duration.read? (c :: s) with
    | some duration => some duration
    | none => if isDigit c then Duration.find? (s.dropWhile isDigit) else Duration.find? s
termination_by s => s.length
decreasing_by
  · have hDrop : (s.dropWhile isDigit).length ≤ s.length := (List.dropWhile_sublist _).length_le
    simp only [List.length_cons]
    omega
  · simp

/-- The seconds alone are rounded to a double before the minutes are added. -/
def Duration.elapsedSeconds (d : Duration) : Except Fault Float := do
  let minutes ← Decimal.readNumeral d.minutes
  let seconds := Decimal.nearest (numeralValue (d.seconds ++ d.fraction)) (Nat.pow 10 d.fraction.length)
  if Decimal.doubleBound ≤ minutes * 60 then throw .numberTooLarge
  return Decimal.nearest (minutes * 60) 1 + seconds

end ScenarioRunner.Transcript
