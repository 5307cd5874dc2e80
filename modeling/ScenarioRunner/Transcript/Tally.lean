import ScenarioRunner.Transcript.CountPhrase
import ScenarioRunner.Transcript.Duration

/-!
# Tallies

The entries of a breakdown, added up word by word, in the order in which the words first come.
-/

namespace ScenarioRunner.Transcript

set_option autoImplicit false

abbrev Tally := List (String × Nat)

def Tally.add : Tally → String → Nat → Tally
  | [], word, n => [(word, n)]
  | (first, m) :: rest, word, n => if first = word then (first, m + n) :: rest else (first, m) :: Tally.add rest word n

def Tally.count (t : Tally) (word : String) : Nat :=
  (t.lookup word).getD 0

def Tally.single? (t : Tally) : Option String :=
  (t.find? fun entry => entry.2 == 1).map Prod.fst

def Tally.ofEntries (entries : List Entry) : Except Fault Tally :=
  entries.foldlM (fun t e => do return t.add (String.ofList e.word) (← Decimal.readNumeral e.numeral)) []

def CountPhrase.total (p : CountPhrase) : Except Fault Nat :=
  Decimal.readNumeral p.numeral

def CountPhrase.tally (p : CountPhrase) : Except Fault Tally :=
  Tally.ofEntries (p.breakdown.getD [])

end ScenarioRunner.Transcript
