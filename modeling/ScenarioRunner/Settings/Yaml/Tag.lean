import ScenarioRunner.Decimal.Double
import ScenarioRunner.Settings.Yaml.Scalar
import ScenarioRunner.Settings.Yaml.Timestamp
import ScenarioRunner.Text.Blank
import ScenarioRunner.Text.Lines

/-!
# Tags

The tag of a node says what kind of value it is. A plain scalar without a tag is given one by its form: nothing, a truth
value, a whole number in one of five notations, a fraction, a timestamp, or else text. Digits are ASCII, and underscores
among them are ignored.
-/

namespace ScenarioRunner.Settings.Yaml

open ScenarioRunner.Text

set_option autoImplicit false

inductive Tag where
  | null
  | bool
  | int
  | float
  | timestamp
  | text
  | binary
  | list
  | mapping
  /-- The key of entries that are taken over from other mappings. -/
  | merge
  /-- The key of a default value. -/
  | defaultValue
  | unknown
deriving DecidableEq, Repr

def standardLead : String := "tag:yaml.org,2002:"

/-- The tag of a full name. Sets, ordered mappings and pairs are not among the values of settings, so that their tags are
refused like those that nobody knows. -/
def Tag.ofName (name : String) : Tag :=
  match after? standardLead.toList name.toList with
  | none => .unknown
  | some kind =>
    match String.ofList kind with
    | "null" => .null
    | "bool" => .bool
    | "int" => .int
    | "float" => .float
    | "timestamp" => .timestamp
    | "str" => .text
    | "binary" => .binary
    | "seq" => .list
    | "map" => .mapping
    | "merge" => .merge
    | "value" => .defaultValue
    | _ => .unknown

def nullWords : List String :=
  ["", "~", "null", "Null", "NULL"]

def boolWords : List String :=
  ["yes", "Yes", "YES", "true", "True", "TRUE", "on", "On", "ON",
    "no", "No", "NO", "false", "False", "FALSE", "off", "Off", "OFF"]

def splitSign (s : List Char) : Bool × List Char :=
  match s with
  | '-' :: rest => (true, rest)
  | '+' :: rest => (false, rest)
  | _ => (false, s)

def isDigitBelow (bound : Nat) (c : Char) : Bool :=
  match hexValue? c with
  | some n => n < bound
  | none => false

def isRun (base : Nat) (s : List Char) : Bool :=
  s.all fun c => c == '_' || isDigitBelow base c

def isDecimalRun (s : List Char) : Bool :=
  match s with
  | [] => false
  | c :: rest => c.isDigit && isRun 10 rest

def isSixtieth (s : List Char) : Bool :=
  match s with
  | [c] => c.isDigit
  | [c, d] => '0' ≤ c && c ≤ '5' && d.isDigit
  | _ => false

def isSexagesimal (isFirst : List Char → Bool) (s : List Char) : Bool :=
  match pieces ':' s with
  | first :: second :: rest => isFirst first && (second :: rest).all isSixtieth
  | _ => false

def isWhole (s : List Char) : Bool :=
  match (splitSign s).2 with
  | '0' :: 'b' :: digits => !digits.isEmpty && isRun 2 digits
  | '0' :: 'x' :: digits => !digits.isEmpty && isRun 16 digits
  | '0' :: digits => isRun 8 digits
  | body => isDecimalRun body || isSexagesimal isDecimalRun body

def isExponent (s : List Char) : Bool :=
  match s with
  | [] => true
  | e :: sign :: digits =>
    (e == 'e' || e == 'E') && (sign == '-' || sign == '+') && !digits.isEmpty && digits.all Char.isDigit
  | _ => false

def isRunChar (c : Char) : Bool :=
  c == '_' || c.isDigit

def splitPoint? (s : List Char) : Option (List Char × List Char) :=
  (afterFirst? '.' s).map fun after => (s.takeWhile (· != '.'), after)

/-- A fraction needs its point. Without digits before the point it has one after it, and no sign. -/
def isFraction (s : List Char) : Bool :=
  let (_, body) := splitSign s
  match splitPoint? body with
  | none => false
  | some ([], after) =>
    ["inf", "Inf", "INF"].contains (String.ofList after) ||
      (body.length == s.length && (["nan", "NaN", "NAN"].contains (String.ofList after) ||
        (isDecimalRun (after.takeWhile isRunChar) && isExponent (after.dropWhile isRunChar))))
  | some (whole, after) =>
    (isDecimalRun whole && isExponent (after.dropWhile isRunChar)) ||
      (isSexagesimal isDecimalRun whole && after.all isRunChar)

/-- The tag of a plain scalar. The last three words stand for tags that no value has. -/
def Tag.ofPlain (s : List Char) : Tag :=
  let word := String.ofList s
  if boolWords.contains word then .bool
  else if isFraction s then .float
  else if isWhole s then .int
  else if word == "<<" then .merge
  else if nullWords.contains word then .null
  else if isTimestamp s then .timestamp
  else if word == "=" then .defaultValue
  else if ["!", "&", "*"].contains word then .unknown
  else .text

end ScenarioRunner.Settings.Yaml
