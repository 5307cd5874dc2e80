/-!
# Doubles as exact numbers

A finite double is a whole number times a power of two. Reading and printing decimals goes through that exact value,
so that both round once, in whole-number arithmetic.
-/

namespace ScenarioRunner.Decimal

set_option autoImplicit false

inductive Magnitude where
  | finite (mantissa : Nat) (exponent : Int)
  | infinite
  | notANumber
deriving DecidableEq

def isNegative (x : Float) : Bool :=
  Nat.pow 2 63 ≤ x.toBits.toNat

def Magnitude.ofFloat (x : Float) : Magnitude :=
  let bits := x.toBits.toNat % Nat.pow 2 63
  let field : Nat := bits / Nat.pow 2 52
  let fraction := bits % Nat.pow 2 52
  if field = 2047 then
    if fraction = 0 then .infinite else .notANumber
  else if field = 0 then .finite fraction (-1074)
  else .finite (fraction + Nat.pow 2 52) ((field : Int) - 1075)

def scaleTwo (num den : Nat) (exponent : Int) : Nat × Nat :=
  if exponent < 0 then (num, den * Nat.pow 2 (-exponent).toNat) else (num * Nat.pow 2 exponent.toNat, den)

def whole? (x : Float) : Option Int :=
  match Magnitude.ofFloat x with
  | .finite mantissa exponent =>
    let (num, den) := scaleTwo mantissa 1 exponent
    let size : Int := num / den
    if num % den = 0 then some (if isNegative x then -size else size) else none
  | _ => none

/-- The whole number nearest to a quotient; a half goes to the even neighbour. -/
def roundHalfEven (num den : Nat) : Nat :=
  let quotient := num / den
  let double := 2 * (num % den)
  if double < den || (double == den && quotient % 2 == 0) then quotient else quotient + 1

def leadingExponent (num den : Nat) : Int :=
  let guess : Int := (num.log2 : Int) - den.log2
  let (scaledNum, scaledDen) := scaleTwo num den (-guess)
  if scaledDen ≤ scaledNum then guess else guess - 1

/-- The double nearest to a quotient; a tie goes to the even mantissa, and what is too large is infinite. -/
def nearest (num den : Nat) : Float :=
  if num = 0 then 0 else
  let exponent := max (leadingExponent num den - 52) (-1074)
  let (scaledNum, scaledDen) := scaleTwo num den (-exponent)
  let bits := (exponent + 1074).toNat * Nat.pow 2 52 + roundHalfEven scaledNum scaledDen
  Float.ofBits (min bits (2047 * Nat.pow 2 52)).toUInt64

/-- The double nearest to `mantissa * 10 ^ exponent`. Far outside the range of doubles nothing is computed. -/
def nearestScientific (mantissa : Nat) (exponent : Int) : Float :=
  if mantissa = 0 || exponent < -(400 + (mantissa.log2 : Int)) then 0
  else if 400 < exponent then Float.ofBits (2047 * Nat.pow 2 52 : Nat).toUInt64
  else nearest (mantissa * Nat.pow 10 exponent.toNat) (Nat.pow 10 (-exponent).toNat)

/-- Whole numbers from here on round to no finite double: half a step beyond the largest one. -/
def doubleBound : Nat :=
  Nat.pow 2 1024 - Nat.pow 2 970

/-! ## Fixed places

The exact value is rounded once to the given number of places; a half goes to the even neighbour.
-/

def padLeft (width : Nat) (fill : Char) (s : List Char) : List Char :=
  List.replicate (width - s.length) fill ++ s

def fixedMagnitude (places : Nat) : Magnitude → List Char
  | .infinite => "inf".toList
  | .notANumber => "nan".toList
  | .finite mantissa exponent =>
    let (num, den) := scaleTwo (mantissa * Nat.pow 10 places) 1 exponent
    let digits := padLeft (places + 1) '0' (Nat.toDigits 10 (roundHalfEven num den))
    digits.take (digits.length - places) ++ '.' :: digits.drop (digits.length - places)

def fixed (places : Nat) (x : Float) : String :=
  let magnitude := Magnitude.ofFloat x
  let sign := if isNegative x && magnitude != .notANumber then ['-'] else []
  String.ofList (sign ++ fixedMagnitude places magnitude)

end ScenarioRunner.Decimal
