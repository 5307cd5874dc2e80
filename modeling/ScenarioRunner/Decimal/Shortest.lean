import ScenarioRunner.Decimal.Double

/-!
# Shortest decimals

The text of a double has the fewest digits that read back to the same double, and of those decimals the nearest
one. It is positional for decimal exponents from -4 to 15, always with a fraction; beyond, it has an exponent
with a sign and at least two digits.
-/

namespace ScenarioRunner.Decimal

set_option autoImplicit false

structure Scientific where
  digits : Nat
  exponent : Int
deriving DecidableEq

/-- The numbers that round to a double, in quarters of its last binary digit. -/
structure Interval where
  lower : Nat
  middle : Nat
  upper : Nat
  closed : Bool

/-- The distance below is halved where the next double below has a smaller exponent. -/
def Interval.ofMantissa (mantissa : Nat) (exponent : Int) : Interval where
  lower := 4 * mantissa - (if mantissa = Nat.pow 2 52 ∧ exponent ≠ -1074 then 1 else 2)
  middle := 4 * mantissa
  upper := 4 * mantissa + 2
  closed := mantissa % 2 == 0

def Interval.contains (i : Interval) (scale x : Nat) : Bool :=
  if i.closed then i.lower * scale ≤ x && x ≤ i.upper * scale
  else i.lower * scale < x && x < i.upper * scale

/-- The number of decimal digits before the point; for a fraction, minus the number of zeros after the point. -/
def pointPosition (num den : Nat) : Int :=
  if den ≤ num then ((Nat.toDigits 10 (num / den)).length : Int)
  else 1 - (((List.range 400).find? fun shift => den ≤ num * Nat.pow 10 shift).getD 400 : Int)

/-- Of the two multiples of `10 ^ exponent` around the middle, the nearest one in the interval, if there is one. -/
def Interval.nearest? (i : Interval) (unitNum unitDen : Nat) (exponent : Int) : Option Scientific :=
  let step := Nat.pow 10 exponent.toNat * unitDen
  let scale := unitNum * Nat.pow 10 (-exponent).toNat
  let below := i.middle * scale / step
  let remainder := i.middle * scale % step
  match i.contains scale (below * step), i.contains scale ((below + 1) * step) with
  | false, false => none
  | true, false => some ⟨below, exponent⟩
  | false, true => some ⟨below + 1, exponent⟩
  | true, true =>
    let double := 2 * remainder
    some ⟨if double < step || (double == step && below % 2 == 0) then below else below + 1, exponent⟩

/-- The fewest digits that read back; seventeen are always enough. -/
def shortest (mantissa : Nat) (exponent : Int) : Scientific :=
  let (unitNum, unitDen) := scaleTwo 1 1 (exponent - 2)
  let interval := Interval.ofMantissa mantissa exponent
  let point := pointPosition (interval.middle * unitNum) unitDen
  ((List.range 17).findSome? fun fewer =>
    interval.nearest? unitNum unitDen (point - (fewer + 1 : Nat))).getD ⟨0, 0⟩

def Scientific.significant (d : Scientific) : List Char × Int :=
  let digits := Nat.toDigits 10 d.digits
  let kept := (digits.reverse.dropWhile (· == '0')).reverse
  (kept, d.exponent + (digits.length - kept.length : Nat))

def positional (digits : List Char) (point : Int) : List Char :=
  if point ≤ 0 then '0' :: '.' :: List.replicate (-point).toNat '0' ++ digits
  else
    let whole := digits.take point.toNat
    let fraction := digits.drop point.toNat
    whole ++ List.replicate (point.toNat - whole.length) '0' ++ '.' :: if fraction.isEmpty then ['0'] else fraction

def exponential (digits : List Char) (exponent : Int) : List Char :=
  let size := Nat.toDigits 10 exponent.natAbs
  let width := if size.length < 2 then '0' :: size else size
  digits.take 1 ++ (if digits.length ≤ 1 then [] else '.' :: digits.drop 1) ++
    'e' :: (if exponent < 0 then '-' else '+') :: width

def textOfMagnitude : Magnitude → List Char
  | .infinite => "inf".toList
  | .notANumber => "nan".toList
  | .finite 0 _ => "0.0".toList
  | .finite mantissa exponent =>
    let (digits, shift) := (shortest mantissa exponent).significant
    let point := digits.length + shift
    if -4 < point && point ≤ 16 then positional digits point else exponential digits (point - 1)

def text (x : Float) : String :=
  let magnitude := Magnitude.ofFloat x
  let sign := if isNegative x && magnitude != .notANumber then ['-'] else []
  String.ofList (sign ++ textOfMagnitude magnitude)

end ScenarioRunner.Decimal
