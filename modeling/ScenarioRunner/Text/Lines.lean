/-!
# Lines of a text

A text is cut at every separator, so that it has one piece more than separators. Line ends of other systems are
unified before files and pipes are cut, and messages are shown line by line, broken at every line boundary.
-/

namespace ScenarioRunner.Text

set_option autoImplicit false

def pushFront (c : Char) : List (List Char) → List (List Char)
  | [] => [[c]]
  | piece :: pieces => (c :: piece) :: pieces

/-- The pieces between the separators; there is at least one, possibly empty. -/
def pieces (sep : Char) (s : List Char) : List (List Char) :=
  s.foldr (fun c done => if c = sep then [] :: done else pushFront c done) [[]]

@[simp] theorem pieces_nil (sep : Char) : pieces sep [] = [[]] := rfl

theorem pieces_cons (sep c : Char) (s : List Char) :
    pieces sep (c :: s) = if c = sep then [] :: pieces sep s else pushFront c (pieces sep s) := rfl

theorem pieces_ne_nil (sep : Char) (s : List Char) : pieces sep s ≠ [] := by
  cases s with
  | nil => simp
  | cons c s =>
    rw [pieces_cons]
    split
    · simp
    · cases pieces sep s <;> simp [pushFront]

/-- Cutting loses nothing but the separators. -/
theorem intercalate_pieces (sep : Char) (s : List Char) : [sep].intercalate (pieces sep s) = s := by
  induction s with
  | nil => simp
  | cons c s ih =>
    rw [pieces_cons]
    split
    · next h =>
      rw [h]
      cases hp : pieces sep s with
      | nil => exact absurd hp (pieces_ne_nil sep s)
      | cons piece rest =>
        rw [hp] at ih
        simp [List.intercalate, List.intersperse] at ih ⊢
        exact ih
    · cases hp : pieces sep s with
      | nil => exact absurd hp (pieces_ne_nil sep s)
      | cons piece rest =>
        rw [hp] at ih
        cases rest with
        | nil => simpa [pushFront, List.intercalate] using ih
        | cons next rest => simpa [pushFront, List.intercalate, List.intersperse] using ih

def endedLines (s : List Char) : List (List Char) :=
  (pieces '\n' s).dropLast

def openLine (s : List Char) : List Char :=
  ((pieces '\n' s).getLast?).getD []

def joinLines (lines : List (List Char)) : List Char :=
  ['\n'].intercalate lines

/-- A carriage return with its line feed, or alone, is one line feed. -/
def unifyNewlines : List Char → List Char
  | [] => []
  | '\r' :: '\n' :: s => '\n' :: unifyNewlines s
  | c :: s => (if c = '\r' then '\n' else c) :: unifyNewlines s

/-- The lines of a text that ends each line with a line feed; only the last line may lack its own. -/
def wholeLines (s : List Char) : List (List Char) :=
  let cut := pieces '\n' s
  if cut.getLast? = some [] then cut.dropLast else cut

def streamLines (s : List Char) : List (List Char) :=
  wholeLines (unifyNewlines s)

def isLineBoundary (c : Char) : Bool :=
  let n := c.toNat
  (10 ≤ n && n ≤ 13) || (0x1C ≤ n && n ≤ 0x1E) || n == 0x85 || n == 0x2028 || n == 0x2029

/-- The lines of a message, broken at every boundary; a boundary at the end starts no further line. -/
def messageLines (s : List Char) : List (List Char) :=
  wholeLines ((unifyNewlines s).map fun c => if isLineBoundary c then '\n' else c)

end ScenarioRunner.Text
