import ScenarioRunner.Text.Blank
import ScenarioRunner.Text.Digit
import ScenarioRunner.Text.Lead
import ScenarioRunner.Text.Word

/-!
# Count phrases

A count phrase is a numeral and a noun, such as `3 scenarios`, with an optional breakdown: entries in parentheses, as
in `3 scenarios (2 passed, 1 failed)`, or entries after a colon, as in `3 scenarios: 2 passed, 1 failed`. An entry is
a numeral, a space and a lower-case word.
-/

namespace ScenarioRunner.Transcript

open ScenarioRunner.Text

set_option autoImplicit false

structure Entry where
  numeral : List Char
  word : List Char
deriving DecidableEq

def isLowerLetter (c : Char) : Bool :=
  'a' ≤ c && c ≤ 'z'

def Entry.read? (s : List Char) : Option (Entry × List Char) := do
  let (numeral, s) ← run? isDigit s
  let s ← after? [' '] s
  let (word, s) ← run? isLowerLetter s
  return (⟨numeral, word⟩, s)

theorem length_of_run? {p : Char → Bool} {s run rest : List Char} (h : run? p s = some (run, rest)) :
    rest.length < s.length := by
  unfold run? at h
  split at h
  · simp at h
  · next hRun =>
    cases h
    have hSum : (s.takeWhile p).length + (s.dropWhile p).length = s.length := by
      rw [← List.length_append, List.takeWhile_append_dropWhile]
    have hPos : 0 < (s.takeWhile p).length := List.length_pos_iff.mpr hRun
    omega

theorem Entry.length_of_read? {s rest : List Char} {e : Entry} (h : Entry.read? s = some (e, rest)) :
    rest.length < s.length := by
  simp only [Entry.read?, Option.bind_eq_bind, Option.bind_eq_some_iff, Prod.exists, Option.pure_def,
    Option.some.injEq, Prod.mk.injEq] at h
  obtain ⟨_, _, hNumeral, _, hSpace, _, _, hWord, _, rfl⟩ := h
  have := length_of_run? hNumeral
  have := length_of_after? hSpace
  have := length_of_run? hWord
  omega

def skipComma (s : List Char) : List Char :=
  match after? [','] s with
  | some rest => trimLeft rest
  | none => s

theorem length_skipComma_le (s : List Char) : (skipComma s).length ≤ s.length := by
  unfold skipComma
  split
  · next rest h =>
    have hDrop : (trimLeft rest).length ≤ rest.length := (List.dropWhile_sublist isBlank).length_le
    have := length_of_after? h
    omega
  · exact Nat.le_refl _

def Entry.readAll (s : List Char) : List Entry × List Char :=
  match _h : Entry.read? s with
  | none => ([], s)
  | some (e, rest) =>
    let (entries, rest) := Entry.readAll (skipComma rest)
    (e :: entries, rest)
termination_by s.length
decreasing_by
  have := Entry.length_of_read? _h
  have := length_skipComma_le rest
  omega

/-- All entries in a text, wherever they stand, without overlap. If none starts with a run of digits, none starts inside
the run. -/
def Entry.findAll : List Char → List Entry
  | [] => []
  | c :: s =>
    match _h : Entry.read? (c :: s) with
    | some (e, rest) => e :: Entry.findAll rest
    | none => if isDigit c then Entry.findAll (s.dropWhile isDigit) else Entry.findAll s
termination_by s => s.length
decreasing_by
  · exact Entry.length_of_read? _h
  · have hDrop : (s.dropWhile isDigit).length ≤ s.length := (List.dropWhile_sublist _).length_le
    simp only [List.length_cons]
    omega
  · simp

/-- Entries in parentheses; blanks may stand before them, and anything around the entries. -/
def parenthesised? (s : List Char) : Option (List Entry × List Char) := do
  let inside ← after? ['('] (trimLeft s)
  let rest ← afterFirst? ')' inside
  return (Entry.findAll (inside.takeWhile (· != ')')), rest)

def listed? (s : List Char) : Option (List Entry × List Char) := do
  let entries ← after? [':'] s
  match Entry.readAll (trimLeft entries) with
  | ([], _) => none
  | found => some found

structure CountPhrase where
  numeral : List Char
  breakdown : Option (List Entry)
deriving DecidableEq

def afterNoun? (noun s : List Char) : Option (List Char) := do
  let s ← after? noun s
  let s := (after? ['s'] s).getD s
  if endsWord s then some s else none

def CountPhrase.read? (noun : String) (s : List Char) : Option (CountPhrase × List Char) := do
  let (numeral, s) ← run? isDigit s
  let s ← after? [' '] s
  let s ← afterNoun? noun.toList s
  match (parenthesised? s).or (listed? s) with
  | some (entries, rest) => return (⟨numeral, some entries⟩, rest)
  | none => return (⟨numeral, none⟩, s)

/-- The first count phrase that stands at the start of a line or after a blank. -/
def CountPhrase.find? (noun : String) (atLineStart : Bool) : List Char → Option CountPhrase
  | [] => none
  | c :: s =>
    match (if atLineStart then CountPhrase.read? noun (c :: s) else none).or
        (if isBlank c then CountPhrase.read? noun s else none) with
    | some (phrase, _) => some phrase
    | none => CountPhrase.find? noun (c == '\n') s

end ScenarioRunner.Transcript
