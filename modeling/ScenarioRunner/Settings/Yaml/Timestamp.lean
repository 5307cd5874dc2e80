import ScenarioRunner.Settings.Scalar
import ScenarioRunner.Text.Lead
import ScenarioRunner.Settings.Yaml.Mark

/-!
# Timestamps

A timestamp is a date such as `2024-01-02`, or a date and a time of day with an optional fraction of a second and an
optional zone, such as `2024-01-02T03:04:05.25+01:00`.
-/

namespace ScenarioRunner.Settings.Yaml

open ScenarioRunner.Calendar
open ScenarioRunner.Text

set_option autoImplicit false

def decimalNumber (digits : List Char) : Nat :=
  digits.foldl (fun n c => n * 10 + (c.toNat - 48)) 0

def readDigits? (least most : Nat) (s : List Char) : Option (Nat × List Char) :=
  let digits := (s.take most).takeWhile Char.isDigit
  if digits.length < least then none else some (decimalNumber digits, s.drop digits.length)

structure Timestamp where
  date : Date
  /-- Whether month and day have both of their digits. -/
  isPadded : Bool
  time : Option (Moment × Option Int)

def readDate? (s : List Char) : Option (Date × Bool × List Char) := do
  let (year, s) ← readDigits? 4 4 s
  let s ← after? ['-'] s
  let (month, s') ← readDigits? 1 2 s
  let s'' ← after? ['-'] s'
  let (day, rest) ← readDigits? 1 2 s''
  return (⟨year, month, day⟩, s.length == s'.length + 2 && s''.length == rest.length + 2, rest)

/-- The digits of a fraction as microseconds; further digits are cut off. -/
def microseconds (digits : List Char) : Nat :=
  decimalNumber ((digits ++ List.replicate 6 '0').take 6)

def readZone? (s : List Char) : Option (Option Int × List Char) :=
  match s.dropWhile isSpaceOrTab with
  | [] => if s.isEmpty then some (none, []) else none
  | 'Z' :: rest => some (some 0, rest)
  | sign :: rest =>
    if sign != '+' && sign != '-' then none
    else do
      let (hours, rest) ← readDigits? 1 2 rest
      let (minutes, rest) ← match after? [':'] rest with
        | some rest => readDigits? 2 2 rest
        | none => some (0, rest)
      let distance : Int := hours * 60 + minutes
      return (some (if sign == '-' then -distance else distance), rest)

def readTime? (date : Date) (s : List Char) : Option (Moment × Option Int) := do
  let (hour, s) ← readDigits? 1 2 s
  let (minute, s) ← readDigits? 2 2 (← after? [':'] s)
  let (second, s) ← readDigits? 2 2 (← after? [':'] s)
  let afterPoint := (after? ['.'] s).getD []
  let fraction := afterPoint.takeWhile Char.isDigit
  let s := if (after? ['.'] s).isSome then afterPoint.drop fraction.length else s
  let (zone, rest) ← readZone? s
  if !rest.isEmpty then none
  return (⟨date, hour, minute, second, microseconds fraction⟩, zone)

def Timestamp.read? (s : List Char) : Option Timestamp := do
  let (date, isPadded, rest) ← readDate? s
  match rest with
  | [] => return ⟨date, isPadded, none⟩
  | c :: after =>
    let time := if c == 'T' || c == 't' then after else rest.dropWhile isSpaceOrTab
    if time.length == rest.length then none
    return ⟨date, isPadded, some (← readTime? date time)⟩

/-- Without a tag a date alone must be padded. -/
def isTimestamp (s : List Char) : Bool :=
  match Timestamp.read? s with
  | some t => t.isPadded || t.time.isSome
  | none => false

def checkZone (minutes : Int) : Except CalendarFault Unit :=
  if minutes.natAbs < 1440 then .ok ()
  else .error (.offset (minutes.fdiv 1440) (minutes.fmod 1440 * 60).toNat)

/-- The date or the moment, if it exists. The zone is looked at first. -/
def Timestamp.check (t : Timestamp) : Except CalendarFault Scalar := do
  match t.time with
  | none => return .date (← t.date.check)
  | some (moment, zone) =>
    zone.forM checkZone
    return .moment (← moment.check) zone

end ScenarioRunner.Settings.Yaml
