/-!
# UTF-8

Bytes are read one at a time. An invalid sequence is cut where it can no longer be continued: each longest
piece that starts a valid sequence, or else each single byte, stands for one missing character.
-/

namespace ScenarioRunner.Text

set_option autoImplicit false

/-- A sequence under way: the bits read so far, the number of bytes still missing, and the bounds of the next. -/
structure Utf8Sequence where
  bits : Nat
  missing : Nat
  lower : Nat
  upper : Nat

inductive Utf8Lead where
  | whole (c : Char)
  | sequence (begun : Utf8Sequence)
  | invalid

def Utf8Lead.ofByte (byte : UInt8) : Utf8Lead :=
  let b := byte.toNat
  if b < 0x80 then .whole (Char.ofNat b)
  else if 0xC2 ≤ b && b ≤ 0xDF then .sequence ⟨b - 0xC0, 1, 0x80, 0xBF⟩
  else if 0xE0 ≤ b && b ≤ 0xEF then
    .sequence ⟨b - 0xE0, 2, if b = 0xE0 then 0xA0 else 0x80, if b = 0xED then 0x9F else 0xBF⟩
  else if 0xF0 ≤ b && b ≤ 0xF4 then
    .sequence ⟨b - 0xF0, 3, if b = 0xF0 then 0x90 else 0x80, if b = 0xF4 then 0x8F else 0xBF⟩
  else .invalid

/-- The characters in order; `none` stands for an invalid piece. -/
def decodeUtf8From : Option Utf8Sequence → List UInt8 → List (Option Char)
  | none, [] => []
  | some _, [] => [none]
  | none, byte :: bytes =>
    match Utf8Lead.ofByte byte with
    | .whole c => some c :: decodeUtf8From none bytes
    | .sequence begun => decodeUtf8From (some begun) bytes
    | .invalid => none :: decodeUtf8From none bytes
  | some begun, byte :: bytes =>
    if begun.lower ≤ byte.toNat && byte.toNat ≤ begun.upper then
      let bits := begun.bits * 64 + (byte.toNat - 0x80)
      if begun.missing ≤ 1 then some (Char.ofNat bits) :: decodeUtf8From none bytes
      else decodeUtf8From (some ⟨bits, begun.missing - 1, 0x80, 0xBF⟩) bytes
    else
      none :: match Utf8Lead.ofByte byte with
        | .whole c => some c :: decodeUtf8From none bytes
        | .sequence next => decodeUtf8From (some next) bytes
        | .invalid => none :: decodeUtf8From none bytes

def decodeUtf8? (bytes : List UInt8) : Option (List Char) :=
  (decodeUtf8From none bytes).mapM id

/-- The text with a replacement character for each invalid piece. -/
def decodeUtf8 (bytes : List UInt8) : List Char :=
  (decodeUtf8From none bytes).map fun c => c.getD '\uFFFD'

def encodeUtf8 (s : String) : List UInt8 :=
  s.toUTF8.toList

end ScenarioRunner.Text
