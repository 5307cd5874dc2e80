import ScenarioRunner.Settings.Yaml.Tag
import ScenarioRunner.Decimal.Limit
import ScenarioRunner.Text.Bytes

/-!
# Numbers in scalars

What a scalar with a tag stands for. A scalar whose tag was given by its form always has a number; a tag that is written
out may stand before anything.
-/

namespace ScenarioRunner.Settings.Yaml

open ScenarioRunner.Text

set_option autoImplicit false

def shownNumeral (s : List Char) : String :=
  String.ofList ((quoted s).take 200)

def digitIn? (base : Nat) (c : Char) : Option Nat :=
  match (digitValue? c).or (hexValue? c) with
  | some n => if n < base then some n else none
  | none => none

def baseLetter? (base : Nat) (c : Char) : Bool :=
  (base == 2 && (c == 'b' || c == 'B')) || (base == 8 && (c == 'o' || c == 'O')) ||
    (base == 16 && (c == 'x' || c == 'X'))

def withoutBaseMark (base : Nat) (s : List Char) : List Char :=
  match s with
  | '0' :: c :: rest => if baseLetter? base c then rest else s
  | _ => s

/-- A whole number in a base. Only in base ten is the number of digits limited. -/
def readInBase (base : Nat) (s : List Char) : Except Fault Int :=
  let (isNegative, body) := splitSign (trim s)
  let digits := withoutBaseMark base body
  match digits.mapM (digitIn? base) with
  | none => .error (.notWholeNumber base (shownNumeral s))
  | some [] => .error (.notWholeNumber base (shownNumeral s))
  | some values =>
    if base = 10 ∧ Decimal.numeralLimit < digits.length then .error (.numeralTooLong digits.length)
    else
      let n : Int := (values.foldl (fun n d => n * base + d) 0 : Nat)
      .ok (if isNegative then -n else n)

def withoutUnderscores (s : List Char) : List Char :=
  s.filter (· != '_')

def readSigned {α : Type} (negate : α → α) (read : List Char → Except Fault α) (s : List Char) : Except Fault α :=
  match s with
  | [] => .error .noNumber
  | '-' :: rest => (read rest).map negate
  | '+' :: rest => read rest
  | _ => read s

def sumSixtieths (parts : List Int) : Int :=
  parts.foldl (fun n part => n * 60 + part) 0

/-- A whole number without its sign. A zero in front means another base. -/
def readMagnitude (s : List Char) : Except Fault Int :=
  match s with
  | [] => .error .noNumber
  | ['0'] => .ok 0
  | '0' :: 'b' :: digits => readInBase 2 digits
  | '0' :: 'x' :: digits => readInBase 16 digits
  | '0' :: _ => readInBase 8 s
  | _ =>
    if s.contains ':' then return sumSixtieths (← (pieces ':' s).mapM (readInBase 10)) else readInBase 10 s

def readWhole (s : List Char) : Except Fault Int :=
  readSigned (- ·) readMagnitude (withoutUnderscores s)

def readRun (s : List Char) : List Char × List Char :=
  (s.takeWhile isDigit, s.dropWhile isDigit)

def readExponent? (s : List Char) : Option Int :=
  match s with
  | [] => some 0
  | e :: rest =>
    let (isNegative, digits) := splitSign rest
    if (e == 'e' || e == 'E') && !digits.isEmpty && digits.all isDigit then
      some (if isNegative then -(numeralValue digits : Int) else numeralValue digits)
    else none

def readDecimal? (s : List Char) : Option Float :=
  let word := String.ofList (s.map Char.toLower)
  if word == "inf" || word == "infinity" then some (1 / 0)
  else if word == "nan" then some (0 / 0)
  else
    let (whole, rest) := readRun s
    let (part, rest) := match after? ['.'] rest with
      | some rest => readRun rest
      | none => ([], rest)
    if whole.isEmpty && part.isEmpty then none
    else (readExponent? rest).map fun e => Decimal.nearestScientific (numeralValue (whole ++ part)) (e - part.length)

def readDecimal (s : List Char) : Except Fault Float :=
  let (isNegative, body) := splitSign (trim s)
  match readDecimal? body with
  | some x => .ok (if isNegative then -x else x)
  | none => .error (.notFraction (String.ofList (quoted s)))

/-- The weights of the places are whole numbers, and each of them has to fit into a double. -/
def sumWeighted : List Float → Nat → Float → Except Fault Float
  | [], _, sum => .ok sum
  | part :: rest, weight, sum =>
    if Decimal.doubleBound ≤ weight then .error .numberTooLarge
    else sumWeighted rest (weight * 60) (sum + part * Decimal.nearest weight 1)

/-- A fraction without its sign. Parts in base sixty are added up from the last one on. -/
def readUnsigned (s : List Char) : Except Fault Float := do
  if s == ".inf".toList then return 1 / 0
  else if s == ".nan".toList then return 0 / 0
  else if s.contains ':' then sumWeighted (← (pieces ':' s).mapM readDecimal).reverse 1 0
  else readDecimal s

/-- A sign before what is no number changes nothing. -/
def readFloat (s : List Char) : Except Fault Float :=
  readSigned (- ·) readUnsigned ((withoutUnderscores s).map Char.toLower)

def readBool (s : List Char) : Except Fault Bool :=
  let word := String.ofList (s.map Char.toLower)
  if ["yes", "true", "on"].contains word then .ok true
  else if ["no", "false", "off"].contains word then .ok false
  else .error .notTruthValue

/-- The value of a scalar with a tag. Halves of characters matter for texts only. -/
def Tag.read (t : Tag) (points : List CodePoint) : Except Fault Scalar := do
  let s := joined points
  match t with
  | .null => return .null
  | .bool => return .bool (← readBool s)
  | .int => return .int (← readWhole s)
  | .float => return .float (← readFloat s)
  | .text => return .ofPoints points
  | .binary =>
    match bytesOfBase64? s with
    | some bytes => return .bytes bytes
    | none => throw .malformedSettings
  | .timestamp =>
    match Timestamp.read? s with
    | none => throw .notTimestamp
    | some t =>
      match t.check with
      | .ok v => return v
      | .error reason => throw (.calendar reason)
  | _ => throw .malformedSettings

end ScenarioRunner.Settings.Yaml
