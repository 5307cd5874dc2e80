import ScenarioRunner.Calendar.Date

/-!
# Moments

A date with a time of day. Seconds are counted from the start of 1970 in universal time.
-/

namespace ScenarioRunner.Calendar

set_option autoImplicit false

structure Moment where
  date : Date
  hour : Nat
  minute : Nat
  second : Nat
  microsecond : Nat := 0
deriving DecidableEq, Repr

def Moment.check (m : Moment) : Except CalendarFault Moment := do
  let _ ← m.date.check
  if 23 < m.hour then throw .hour
  if 59 < m.minute then throw .minute
  if 59 < m.second then throw .second
  return m

/-- Counted from the day before year 1, in the zone of the moment. -/
def Moment.microseconds (m : Moment) : Nat :=
  (((m.date.ordinal * 24 + m.hour) * 60 + m.minute) * 60 + m.second) * 1000000 + m.microsecond

/-- The day a number of days after the start of 1970. Years are counted from March on, so that the leap day comes
last. -/
def Date.ofDays (days : Nat) : Date :=
  let days := days + 719468
  let era := days / 146097
  let dayOfEra := days % 146097
  let yearOfEra := (dayOfEra - dayOfEra / 1460 + dayOfEra / 36524 - dayOfEra / 146096) / 365
  let dayOfYear := dayOfEra - (365 * yearOfEra + yearOfEra / 4 - yearOfEra / 100)
  let monthFromMarch := (5 * dayOfYear + 2) / 153
  let month := if monthFromMarch < 10 then monthFromMarch + 3 else monthFromMarch - 9
  { year := yearOfEra + era * 400 + (if month ≤ 2 then 1 else 0)
    month
    day := dayOfYear - (153 * monthFromMarch + 2) / 5 + 1 }

def Moment.ofSeconds (seconds : Nat) : Moment where
  date := Date.ofDays (seconds / 86400)
  hour := seconds / 3600 % 24
  minute := seconds / 60 % 60
  second := seconds % 60

def Moment.clock (m : Moment) (separator : String) : String :=
  separator.intercalate [padded 2 m.hour, padded 2 m.minute, padded 2 m.second]

/-- The form in file names. The year is not padded. -/
def Moment.compact (m : Moment) : String :=
  m.date.text 0 "" ++ "_" ++ m.clock ""

def Moment.readable (m : Moment) : String :=
  m.date.text 0 "-" ++ " " ++ m.clock ":"

/-- The form in data, with a mark between date and time. Microseconds are left out if there are none. -/
def Moment.iso (m : Moment) (mark : String := "T") : String :=
  m.date.iso ++ mark ++ m.clock ":" ++ if m.microsecond = 0 then "" else "." ++ padded 6 m.microsecond

end ScenarioRunner.Calendar
