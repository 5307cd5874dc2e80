import ScenarioRunner.Calendar.Moment
import ScenarioRunner.Decimal.Limit
import ScenarioRunner.Decimal.Shortest
import ScenarioRunner.Text.Bytes
import ScenarioRunner.Text.Surrogate

/-!
# Scalars

The single values of settings, with the two forms in which they are shown: by themselves, and inside another value. A
whole number that has too many digits cannot be shown.
-/

namespace ScenarioRunner.Settings

open ScenarioRunner.Calendar
open ScenarioRunner.Text

set_option autoImplicit false

inductive Scalar where
  | null
  | bool (b : Bool)
  | int (n : Int)
  | float (x : Float)
  | text (s : String)
  /-- A text with half of a character in it. -/
  | halved (points : List CodePoint)
  | bytes (s : List UInt8)
  | date (d : Date)
  /-- A moment, with its distance from universal time in minutes if that is known. -/
  | moment (m : Moment) (offset : Option Int)
deriving DecidableEq, Inhabited

def Scalar.ofPoints (points : List CodePoint) : Scalar :=
  match wholeText? points with
  | some s => .text (String.ofList s)
  | none => .halved points

/-- Nothing, zero and an empty text count as not set. -/
def Scalar.isSet : Scalar → Bool
  | .null => false
  | .bool b => b
  | .int n => n != 0
  | .float x => x != 0
  | .text s => !s.isEmpty
  | .halved points => !points.isEmpty
  | .bytes s => !s.isEmpty
  | .date _ => true
  | .moment _ _ => true

inductive Key where
  | scalar (s : Scalar)
  /-- In microseconds of universal time. -/
  | instant (microseconds : Int)
deriving DecidableEq

/-- Numbers of any kind are the same key if they are equal, and a truth value counts as zero or one. All files have one
and the same object for what is no number, which is therefore one key. Moments with known zones are the same key if they
are one instant; a moment without a zone is never one of them. -/
def Scalar.key : Scalar → Key
  | .bool b => .scalar (.int b.toNat)
  | .float x =>
    match Decimal.whole? x with
    | some n => .scalar (.int n)
    | none => .scalar (.float x)
  | .moment m (some offset) => .instant (m.microseconds - offset * 60000000)
  | s => .scalar s

def Scalar.isSameKey (s t : Scalar) : Bool :=
  s.key == t.key

def Scalar.typeName : Scalar → String
  | .null => "NoneType"
  | .bool _ => "bool"
  | .int _ => "int"
  | .float _ => "float"
  | .text _ => "str"
  | .halved _ => "str"
  | .bytes _ => "bytes"
  | .date _ => "date"
  | .moment _ _ => "datetime"

def offsetText (minutes : Int) : String :=
  (if minutes < 0 then "-" else "+") ++ padded 2 (minutes.natAbs / 60) ++ ":" ++ padded 2 (minutes.natAbs % 60)

/-- The zone of a moment inside another value. A distance to the west is a day back and the rest forward. -/
def zoneText (minutes : Int) : String :=
  if minutes = 0 then "datetime.timezone.utc"
  else "datetime.timezone(" ++ spanText (minutes.fdiv 1440) (minutes.fmod 1440 * 60).toNat ++ ")"

def momentParts (m : Moment) (offset : Option Int) : List String :=
  [m.date.year, m.date.month, m.date.day, m.hour, m.minute].map toString ++
    (if m.second = 0 ∧ m.microsecond = 0 then [] else [toString m.second]) ++
    (if m.microsecond = 0 then [] else [toString m.microsecond]) ++
    (offset.map fun minutes => "tzinfo=" ++ zoneText minutes).toList

def Scalar.quoted : Scalar → Except Fault String
  | .null => .ok "None"
  | .bool b => .ok (if b then "True" else "False")
  | .int n => Decimal.writeNumber n
  | .float x => .ok (Decimal.text x)
  | .text s => .ok (String.ofList (Text.quoted s.toList))
  | .halved points => .ok (String.ofList (Text.quotedPoints points))
  | .bytes s => .ok (String.ofList (Text.quotedBytes s))
  | .date d =>
    .ok ("datetime.date(" ++ ", ".intercalate ([d.year, d.month, d.day].map toString) ++ ")")
  | .moment m offset => .ok ("datetime.datetime(" ++ ", ".intercalate (momentParts m offset) ++ ")")

/-- The form by itself: text is shown as it is, with its pairs of halves joined. -/
def Scalar.shown : Scalar → Except Fault String
  | .text s => .ok s
  | .halved points => .ok (String.ofList (Text.joined points))
  | .date d => .ok d.iso
  | .moment m offset => .ok (m.iso " " ++ (offset.map offsetText).getD "")
  | s => s.quoted

end ScenarioRunner.Settings
