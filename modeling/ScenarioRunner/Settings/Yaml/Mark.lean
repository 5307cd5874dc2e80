import ScenarioRunner.Fault

/-!
# Marks of a settings file

A mark is a character with its place. Lines, columns and offsets are counted from zero, and a byte order mark takes no
column. The last mark of a file is its end.
-/

namespace ScenarioRunner.Settings.Yaml

set_option autoImplicit false

structure Mark where
  char : Char
  line : Nat
  column : Nat
  offset : Nat
deriving DecidableEq, Repr

/-- No file has this character, so that it can stand for the end. -/
def endChar : Char := '\x00'

def isBreak (c : Char) : Bool :=
  c == '\n' || c == '\x85' || c == '\u2028' || c == '\u2029'

def endsLine (c : Char) : Bool :=
  isBreak c || c == endChar

def isSpaceOrTab (c : Char) : Bool :=
  c == ' ' || c == '\t'

def isSeparator (c : Char) : Bool :=
  isSpaceOrTab c || endsLine c

def Mark.next (m : Mark) (c : Char) : Mark where
  char := c
  line := if isBreak m.char then m.line + 1 else m.line
  column := if isBreak m.char then 0 else if m.char = '\uFEFF' then m.column else m.column + 1
  offset := m.offset + 1

def marks (s : List Char) : List Mark :=
  let step (found : List Mark) (c : Char) : List Mark :=
    match found with
    | [] => [⟨c, 0, 0, 0⟩]
    | last :: _ => last.next c :: found
  ((s ++ [endChar]).foldl step []).reverse

def headMark (s : List Mark) : Mark :=
  s.headD ⟨endChar, 0, 0, 0⟩

def headChar (s : List Mark) : Char :=
  (headMark s).char

def chars (s : List Mark) : List Char :=
  s.map Mark.char

def startsWith (lead : List Char) (s : List Mark) : Bool :=
  chars (s.take lead.length) == lead

def documentStart : List Char := ['-', '-', '-']

def documentEnd : List Char := ['.', '.', '.']

def isDocumentSign (sign : List Char) (s : List Mark) : Bool :=
  startsWith sign s && isSeparator (headChar (s.drop sign.length))

def atDocumentSign (s : List Mark) : Bool :=
  isDocumentSign documentStart s || isDocumentSign documentEnd s

end ScenarioRunner.Settings.Yaml
