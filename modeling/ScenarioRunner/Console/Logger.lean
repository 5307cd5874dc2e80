import ScenarioRunner.Calendar.Moment
import ScenarioRunner.Text.Lead
import ScenarioRunner.Text.Lines

/-!
# Loggers

A registry of named loggers. Setting up a logger gives it one handler and a level; doing so again changes nothing. A
logger without a level of its own takes the level of its parent, which is the nearest logger above it by name.
-/

namespace ScenarioRunner.Console

open ScenarioRunner.Calendar
open ScenarioRunner.Text

set_option autoImplicit false

def rootName : String := "root"

structure Logger where
  name : String
  level : Int := 0
  handlers : Nat := 0
  propagates : Bool := true
  parent : String := rootName
deriving DecidableEq, Repr

def infoLevel : Int := 20

def warningLevel : Int := 30

structure Registry where
  loggers : List Logger := []
  /-- The root is not one of the named loggers. -/
  root : Logger := { name := rootName, level := warningLevel }

def isRootName (name : String) : Bool :=
  name == "" || name == rootName

def Registry.find? (r : Registry) (name : String) : Option Logger :=
  if isRootName name then some r.root else r.loggers.find? fun l => l.name == name

def beforeLastDot? (name : List Char) : Option (List Char) :=
  match ((name.reverse.dropWhile (· != '.')).drop 1).reverse with
  | [] => none
  | above => some above

/-- The names above a name, the nearest first. A dot right before a dot is passed over. -/
def namesAbove : Nat → List Char → List String
  | 0, _ => []
  | steps + 1, name =>
    match beforeLastDot? name with
    | some above => String.ofList above :: namesAbove steps above.dropLast
    | none => []

def Logger.above (l : Logger) : List String :=
  namesAbove l.name.length l.name.toList

def Registry.parentOf (r : Registry) (l : Logger) : String :=
  (l.above.find? fun name => (r.find? name).isSome).getD rootName

/-- A new logger comes between a logger below it and the parent of that, unless the name of the parent starts with the
new name. -/
def Logger.adopt (new l : Logger) : Logger :=
  if l.above.contains new.name && (after? new.name.toList l.parent.toList).isNone then { l with parent := new.name }
  else l

def Registry.add (r : Registry) (name : String) : Registry :=
  let new : Logger := { name }
  { r with loggers := r.loggers.map new.adopt ++ [{ new with parent := r.parentOf new }] }

/-- The first set-up of a logger decides. -/
def Logger.setUp (l : Logger) (level : Int) : Logger :=
  if l.handlers = 0 then { l with level, handlers := 1, propagates := false } else l

def putLogger (loggers : List Logger) (logger : Logger) : List Logger :=
  loggers.map fun l => if l.name = logger.name then logger else l

def Registry.put (r : Registry) (logger : Logger) : Registry :=
  if isRootName logger.name then { r with root := logger } else { r with loggers := putLogger r.loggers logger }

def Registry.setUp (r : Registry) (name : String) (level : Int := infoLevel) : Registry × Logger :=
  let r := if (r.find? name).isSome then r else r.add name
  let logger := ((r.find? name).getD { name }).setUp level
  (r.put logger, logger)

def programPrefix : String := "cucumber_runner"

def Registry.setLevel (r : Registry) (level : Int) : Registry :=
  { r with loggers := r.loggers.map fun l =>
      if (after? programPrefix.toList l.name.toList).isSome then { l with level } else l }

/-- The first level on the way up. Each step goes from a logger to its parent. -/
def Registry.levelFrom (r : Registry) : Nat → Logger → Int
  | 0, l => l.level
  | steps + 1, l =>
    if l.level ≠ 0 then l.level
    else
      match r.loggers.find? fun m => m.name == l.parent with
      | some parent => r.levelFrom steps parent
      | none => r.root.level

def Registry.effectiveLevel (r : Registry) (l : Logger) : Int :=
  r.levelFrom r.loggers.length l

def levelName (level : Int) : String :=
  if level = 10 then "DEBUG"
  else if level = 20 then "INFO"
  else if level = 30 then "WARNING"
  else if level = 40 then "ERROR"
  else if level = 50 then "CRITICAL"
  else "Level " ++ toString level

def levelColor (level : Int) : String :=
  if level = 10 then "\x1b[36m"
  else if level = 20 then "\x1b[32m"
  else if level = 30 then "\x1b[33m"
  else if level = 40 then "\x1b[31m"
  else if level = 50 then "\x1b[31m\x1b[1m"
  else ""

def resetColor : String := "\x1b[0m"

/-- A message with its level and the second of its creation, counted from the start of a day. -/
structure LogRecord where
  level : Int
  message : String
  created : Int := 0

def LogRecord.clock (record : LogRecord) : String :=
  let second := (record.created % 86400).toNat
  ":".intercalate [padded 2 (second / 3600), padded 2 (second / 60 % 60), padded 2 (second % 60)]

def LogRecord.text (record : LogRecord) (name : String) : String :=
  record.clock ++ " - " ++ levelColor record.level ++ levelName record.level ++ resetColor ++ " - " ++ name ++ " - " ++
    record.message ++ "\n"

def Registry.write (r : Registry) (l : Logger) (record : LogRecord) : String :=
  if 0 < record.level ∧ r.effectiveLevel l ≤ record.level then record.text l.name else ""

end ScenarioRunner.Console
