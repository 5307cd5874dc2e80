import ScenarioRunner.Decimal.Double
import ScenarioRunner.Fault

/-!
# Dates

The days of the Gregorian calendar, from year 1 to year 9999.
-/

namespace ScenarioRunner.Calendar

open ScenarioRunner.Decimal

set_option autoImplicit false

structure Date where
  year : Nat
  month : Nat
  day : Nat
deriving DecidableEq, Repr

def isLeapYear (year : Nat) : Bool :=
  year % 4 == 0 && (year % 100 != 0 || year % 400 == 0)

def daysInMonth (year month : Nat) : Nat :=
  if month = 2 then if isLeapYear year then 29 else 28
  else if month = 4 ∨ month = 6 ∨ month = 9 ∨ month = 11 then 30
  else 31

/-- The date, if there is such a day. The year is looked at first and the day last. -/
def Date.check (d : Date) : Except CalendarFault Date :=
  if d.year = 0 ∨ 9999 < d.year then .error (.year d.year)
  else if d.month = 0 ∨ 12 < d.month then .error .month
  else if d.day = 0 ∨ daysInMonth d.year d.month < d.day then .error .day
  else .ok d

/-- The number of a day, counted from the first day of year 1 on. -/
def Date.ordinal (d : Date) : Nat :=
  let years := d.year - 1
  let months := (List.range (d.month - 1)).map fun month => daysInMonth d.year (month + 1)
  365 * years + years / 4 - years / 100 + years / 400 + months.foldl (· + ·) 0 + d.day

example : (Date.mk 2024 3 1).ordinal = (Date.mk 2024 2 29).ordinal + 1 := by
  decide

def padded (width n : Nat) : String :=
  String.ofList (padLeft width '0' (Nat.toDigits 10 n))

def Date.text (d : Date) (yearWidth : Nat) (separator : String) : String :=
  separator.intercalate [padded yearWidth d.year, padded 2 d.month, padded 2 d.day]

def Date.iso (d : Date) : String :=
  d.text 4 "-"

end ScenarioRunner.Calendar
