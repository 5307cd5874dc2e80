import ScenarioRunner.Text.Quoted
import ScenarioRunner.Text.Utf8

/-!
# Surrogates

A character beyond the first plane can be named by two halves, its surrogates. A text that has been given in this way is
a list of code points, in which the halves stay apart. It is shown by itself with its pairs joined, and inside another
value with each half by its number.
-/

namespace ScenarioRunner.Text

set_option autoImplicit false

inductive CodePoint where
  | char (c : Char)
  | surrogate (code : Nat)
deriving DecidableEq, Repr

def isHighHalf (code : Nat) : Bool :=
  0xD800 ≤ code && code < 0xDC00

def isLowHalf (code : Nat) : Bool :=
  0xDC00 ≤ code && code < 0xE000

def CodePoint.ofNat (code : Nat) : CodePoint :=
  if isHighHalf code || isLowHalf code then .surrogate code else .char (Char.ofNat code)

def CodePoint.char? : CodePoint → Option Char
  | .char c => some c
  | .surrogate _ => none

def wholeText? (s : List CodePoint) : Option (List Char) :=
  s.mapM CodePoint.char?

def pairChar (high low : Nat) : Char :=
  Char.ofNat (0x10000 + (high - 0xD800) * 1024 + (low - 0xDC00))

/-- A high half and the low half after it are one character; a half without the other is replaced. -/
def joined : List CodePoint → List Char
  | [] => []
  | .char c :: s => c :: joined s
  | .surrogate high :: .surrogate low :: s =>
    if isHighHalf high && isLowHalf low then pairChar high low :: joined s
    else '\uFFFD' :: joined (.surrogate low :: s)
  | .surrogate _ :: s => '\uFFFD' :: joined s

def CodePoint.escaped (quote : Char) : CodePoint → List Char
  | .char c => Text.escaped quote c
  | .surrogate code => '\\' :: 'u' :: hexDigits 4 code

def quotedPoints (s : List CodePoint) : List Char :=
  let quote := quoteFor (joined s)
  quote :: s.flatMap (CodePoint.escaped quote) ++ [quote]

/-- The bytes of a text for the system. Some of the low halves stand for one byte each, and no other half has any. -/
def systemBytes? : List CodePoint → Option (List UInt8)
  | [] => some []
  | .char c :: s => (systemBytes? s).map (encodeUtf8 (String.singleton c) ++ ·)
  | .surrogate code :: s =>
    if 0xDC80 ≤ code && code ≤ 0xDCFF then (systemBytes? s).map (UInt8.ofNat (code - 0xDC00) :: ·) else none

/-- The text as it is sought among files. No name of a file has half of a character in it, nor a null character, which
stands for it here. -/
def sought (s : List CodePoint) : List Char :=
  s.map fun point => point.char?.getD '\x00'

end ScenarioRunner.Text
