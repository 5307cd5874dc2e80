import ScenarioRunner.Text.Quoted

/-!
# Bytes in text

Bytes are written in base sixty-four, four characters for three of them, and are shown between quotes with a mark in
front. Characters outside the base are passed over, and what follows the padding of the last group is left out.
-/

namespace ScenarioRunner.Text

set_option autoImplicit false

def sextet? (c : Char) : Option Nat :=
  if 'A' ≤ c && c ≤ 'Z' then some (c.toNat - 65)
  else if 'a' ≤ c && c ≤ 'z' then some (c.toNat - 71)
  else if c.isDigit then some (c.toNat + 4)
  else if c = '+' then some 62
  else if c = '/' then some 63
  else none

/-- One byte less than there are sextets. -/
def groupBytes (sextets : List Nat) : List UInt8 :=
  let n := (sextets ++ List.replicate (4 - sextets.length) 0).foldl (fun n d => n * 64 + d) 0
  ([n / 65536, n / 256, n].take (sextets.length - 1)).map UInt8.ofNat

/-- The bytes from here on, after some sextets of a group and the padding that has followed them. -/
def groupsFrom? (sextets : List Nat) (padding : Nat) : List Char → Option (List UInt8)
  | [] => if sextets.isEmpty then some [] else none
  | '=' :: rest =>
    if 2 ≤ sextets.length ∧ 4 ≤ sextets.length + padding + 1 then some (groupBytes sextets)
    else groupsFrom? sextets (padding + 1) rest
  | c :: rest =>
    match sextet? c with
    | none => groupsFrom? sextets padding rest
    | some d =>
      if sextets.length = 3 then (groupsFrom? [] 0 rest).map (groupBytes (sextets ++ [d]) ++ ·)
      else groupsFrom? (sextets ++ [d]) 0 rest

def bytesOfBase64? (s : List Char) : Option (List UInt8) :=
  if s.all (·.toNat < 128) then groupsFrom? [] 0 s else none

example : bytesOfBase64? "AP9h\nCg==".toList = some [0, 255, 97, 10] := by
  decide

def escapedByte (quote c : Char) : List Char :=
  if c.toNat < 128 then escaped quote c else '\\' :: 'x' :: hexDigits 2 c.toNat

def quotedBytes (bytes : List UInt8) : List Char :=
  let s := bytes.map fun byte => Char.ofNat byte.toNat
  let quote := quoteFor s
  'b' :: quote :: s.flatMap (escapedByte quote) ++ [quote]

end ScenarioRunner.Text
