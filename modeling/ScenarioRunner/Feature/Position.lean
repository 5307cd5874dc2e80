/-!
# Positions in a file

Lines and characters are counted from zero; a span ends before its last position.
-/

namespace ScenarioRunner.Feature

set_option autoImplicit false

structure Position where
  line : Nat
  character : Nat
deriving DecidableEq, Repr

structure Span where
  start : Position
  stop : Position
deriving DecidableEq, Repr

def Span.ofLine (line width : Nat) : Span :=
  ⟨⟨line, 0⟩, ⟨line, width⟩⟩

/-- A place where a problem is shown. Counted from a step number, it may lie outside the file. -/
structure Location where
  line : Int
  character : Nat
deriving DecidableEq, Repr

def Position.location (p : Position) : Location :=
  ⟨p.line, p.character⟩

end ScenarioRunner.Feature
