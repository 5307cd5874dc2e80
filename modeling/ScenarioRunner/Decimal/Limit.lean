import ScenarioRunner.Fault
import ScenarioRunner.Text.Digit

/-!
# The limit on numerals

A whole number is read from at most 4300 digits, leading zeros included, and written with at most as many. Main
statement: what is written is the decimal form of a number below the limit.
-/

namespace ScenarioRunner.Decimal

open ScenarioRunner.Text

set_option autoImplicit false

def numeralLimit : Nat := 4300

def readNumeral (digits : List Char) : Except Fault Nat :=
  if numeralLimit < digits.length then .error (.numeralTooLong digits.length) else .ok (numeralValue digits)

def writeNumber (n : Int) : Except Fault String :=
  if Nat.pow 10 numeralLimit ≤ n.natAbs then .error .numberTooLong else .ok (toString n)

theorem writeNumber_eq_ok_iff (n : Int) (s : String) :
    writeNumber n = .ok s ↔ n.natAbs < Nat.pow 10 numeralLimit ∧ s = toString n := by
  unfold writeNumber
  split
  · next h =>
    constructor
    · intro hOk
      cases hOk
    · rintro ⟨hBelow, -⟩
      exact absurd h (Nat.not_le.mpr hBelow)
  · next h =>
    constructor
    · intro hOk
      cases hOk
      exact ⟨Nat.not_le.mp h, rfl⟩
    · rintro ⟨-, rfl⟩
      rfl

end ScenarioRunner.Decimal
