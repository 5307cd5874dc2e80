/-!
# Terminal codes

A code is the escape character, a bracket, parameters, intermediate characters and a final one. Colour codes have digits
and semicolons as parameters, nothing between them and a letter at the end. Codes and zero-width characters change how a
line looks and never what it says, so colour codes are removed before a line is read, and all codes before it is shown.
-/

namespace ScenarioRunner.Text

set_option autoImplicit false

structure CodeShape where
  isParameter : Char → Bool
  isIntermediate : Char → Bool
  isFinal : Char → Bool

def colourCode : CodeShape where
  isParameter c := c.isDigit || c == ';'
  isIntermediate _ := false
  isFinal c := c.isAlpha

def controlCode : CodeShape where
  isParameter c := '0' ≤ c && c ≤ '?'
  isIntermediate c := ' ' ≤ c && c ≤ '/'
  isFinal c := '@' ≤ c && c ≤ '~'

def afterCode? (shape : CodeShape) : List Char → Option (List Char)
  | '[' :: s =>
    match (s.dropWhile shape.isParameter).dropWhile shape.isIntermediate with
    | [] => none
    | c :: rest => if shape.isFinal c then some rest else none
  | _ => none

theorem length_of_afterCode? {shape : CodeShape} {s rest : List Char} (h : afterCode? shape s = some rest) :
    rest.length < s.length := by
  unfold afterCode? at h
  split at h
  · next s =>
    have hParameters : (s.dropWhile shape.isParameter).length ≤ s.length :=
      (List.dropWhile_sublist _).length_le
    have hIntermediate : ((s.dropWhile shape.isParameter).dropWhile shape.isIntermediate).length ≤
        (s.dropWhile shape.isParameter).length := (List.dropWhile_sublist _).length_le
    split at h
    · simp at h
    · next c tail hTail =>
      split at h
      · cases h
        rw [hTail] at hIntermediate
        simp only [List.length_cons] at hIntermediate ⊢
        omega
      · simp at h
  · simp at h

def removeCodes (shape : CodeShape) : List Char → List Char
  | [] => []
  | c :: s =>
    if c = '\x1b' then
      match _h : afterCode? shape s with
      | some rest => removeCodes shape rest
      | none => c :: removeCodes shape s
    else c :: removeCodes shape s
termination_by s => s.length
decreasing_by
  · have := length_of_afterCode? _h
    simp only [List.length_cons]
    omega
  · simp
  · simp

def isZeroWidth (c : Char) : Bool :=
  let n := c.toNat
  (0x200B ≤ n && n ≤ 0x200D) || n == 0xFEFF

/-- Colour codes go first, then zero-width characters. -/
def stripCodes (s : List Char) : List Char :=
  (removeCodes colourCode s).filter fun c => !isZeroWidth c

end ScenarioRunner.Text
