/-!
# Blank characters

The blanks are the white-space controls, the information separators, the space and the space-like separators.
Zero-width characters and the byte order mark are not among them.
-/

namespace ScenarioRunner.Text

set_option autoImplicit false

def isBlank (c : Char) : Bool :=
  let n := c.toNat
  (9 ≤ n && n ≤ 13) || (28 ≤ n && n ≤ 32) || n == 0x85 || n == 0xA0 || n == 0x1680 ||
    (0x2000 ≤ n && n ≤ 0x200A) || n == 0x2028 || n == 0x2029 || n == 0x202F || n == 0x205F || n == 0x3000

def dropTrailing (p : Char → Bool) (s : List Char) : List Char :=
  (s.reverse.dropWhile p).reverse

def trimLeft (s : List Char) : List Char :=
  s.dropWhile isBlank

def trimRight (s : List Char) : List Char :=
  dropTrailing isBlank s

def trim (s : List Char) : List Char :=
  trimRight (trimLeft s)

end ScenarioRunner.Text
