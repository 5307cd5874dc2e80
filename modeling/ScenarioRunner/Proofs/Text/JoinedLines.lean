import ScenarioRunner.Proofs.Text.Lines
import ScenarioRunner.Proofs.Text.Plain

/-!
# Trimming a text of several lines

Where every line is trimmed already, trimming the text takes away the empty lines at both ends and nothing else. So the
lines of the trimmed text are the lines that it was put together from, as far as they are not empty.
-/

namespace ScenarioRunner.Text

set_option autoImplicit false

theorem isBlank_lineFeed : isBlank '\n' = true := by decide

theorem joinLines_cons {lines : List (List Char)} (h : lines ≠ []) (line : List Char) :
    joinLines (line :: lines) = line ++ '\n' :: joinLines lines := by
  rw [joinLines, List.intercalate_cons_of_ne_nil h, List.append_assoc]
  rfl

theorem joinLines_concat {lines : List (List Char)} (h : lines ≠ []) (line : List Char) :
    joinLines (lines ++ [line]) = joinLines lines ++ '\n' :: line := by
  induction lines with
  | nil => exact absurd rfl h
  | cons first lines ih =>
    rw [List.cons_append, joinLines_cons (List.concat_ne_nil line lines)]
    by_cases hRest : lines = []
    · subst hRest
      simp [joinLines]
    · rw [ih hRest, joinLines_cons hRest, List.append_assoc]
      rfl

theorem trimLeft_joinLines {lines : List (List Char)} (h : ∀ line ∈ lines, ∀ c ∈ line.head?, isBlank c = false) :
    trimLeft (joinLines lines) = joinLines (lines.dropWhile List.isEmpty) := by
  induction lines with
  | nil => rfl
  | cons line lines ih =>
    cases line with
    | nil =>
      rw [List.dropWhile_cons, if_pos List.isEmpty_nil]
      rw [← ih fun l hl => h l (List.mem_cons_of_mem _ hl)]
      by_cases hRest : lines = []
      · subst hRest
        rfl
      · rw [joinLines_cons hRest, List.nil_append, trimLeft, List.dropWhile_cons, if_pos isBlank_lineFeed]
        rfl
    | cons c line =>
      have hHead : ∀ d ∈ (joinLines ((c :: line) :: lines)).head?, isBlank d = false := by
        intro d hd
        apply h _ List.mem_cons_self
        by_cases hRest : lines = []
        · subst hRest
          simpa [joinLines] using hd
        · rw [joinLines_cons hRest] at hd
          exact hd
      rw [trimLeft, dropWhile_eq_self hHead, List.dropWhile_cons, if_neg (by simp)]

theorem trimRight_joinLines {lines : List (List Char)} (h : ∀ line ∈ lines, ∀ c ∈ line.getLast?, isBlank c = false) :
    trimRight (joinLines lines) = joinLines (lines.rdropWhile List.isEmpty) := by
  induction lines using List.reverseRecOn with
  | nil => rfl
  | append_singleton lines line ih =>
    have hLines : trimRight (joinLines lines) = joinLines (lines.rdropWhile List.isEmpty) :=
      ih fun l hl => h l (List.mem_append_left _ hl)
    have hLast := h line (List.mem_append_right _ List.mem_cons_self)
    -- An empty line goes with the feed before it, any other line is the end.
    by_cases hLine : line = []
    · subst hLine
      rw [List.rdropWhile_concat_pos _ _ _ List.isEmpty_nil, ← hLines]
      by_cases hBefore : lines = []
      · subst hBefore
        rfl
      · rw [joinLines_concat hBefore]
        exact List.rdropWhile_concat_pos isBlank (joinLines lines) '\n' isBlank_lineFeed
    · rw [List.rdropWhile_concat_neg _ _ _ (by simpa using hLine)]
      apply dropTrailing_eq_self
      intro c hc
      apply hLast
      by_cases hBefore : lines = []
      · subst hBefore
        simpa [joinLines] using hc
      · obtain ⟨start, last, rfl⟩ := (List.eq_nil_or_concat' line).resolve_left hLine
        rw [joinLines_concat hBefore, ← List.cons_append, ← List.append_assoc, List.getLast?_concat] at hc
        rwa [List.getLast?_concat]

theorem trim_joinLines {lines : List (List Char)} (h : ∀ line ∈ lines, trim line = line) :
    trim (joinLines lines) = joinLines ((lines.dropWhile List.isEmpty).rdropWhile List.isEmpty) := by
  rw [trim, trimLeft_joinLines, trimRight_joinLines]
  · intro line hLine
    rw [← h line ((List.dropWhile_sublist _).subset hLine)]
    exact isBlank_last_trim line
  · intro line hLine
    rw [← h line hLine]
    exact isBlank_head_trim line

theorem mem_dropWhile_of_not {α : Type} {p : α → Bool} {a : α} {l : List α} (ha : p a = false) :
    a ∈ l.dropWhile p ↔ a ∈ l := by
  constructor
  · exact fun h => (List.dropWhile_sublist p).subset h
  · intro h
    rw [← List.takeWhile_append_dropWhile (p := p) (l := l), List.mem_append] at h
    rcases h with h | h
    · rw [List.mem_takeWhile_imp h] at ha
      cases ha
    · exact h

/-- Trimming loses no line but empty ones. -/
theorem mem_pieces_trim_joinLines {lines : List (List Char)} (hTrimmed : ∀ line ∈ lines, trim line = line)
    (hFeed : ∀ line ∈ lines, '\n' ∉ line) {line : List Char} (hLine : line ≠ []) :
    line ∈ pieces '\n' (trim (joinLines lines)) ↔ line ∈ lines := by
  have hFull : line.isEmpty = false := by simpa using hLine
  have hKept : line ∈ (lines.dropWhile List.isEmpty).rdropWhile List.isEmpty ↔ line ∈ lines := by
    rw [List.rdropWhile, List.mem_reverse, mem_dropWhile_of_not hFull, List.mem_reverse, mem_dropWhile_of_not hFull]
  rw [trim_joinLines hTrimmed, ← hKept]
  by_cases hNone : (lines.dropWhile List.isEmpty).rdropWhile List.isEmpty = []
  · rw [hNone]
    simpa [joinLines] using hLine
  · rw [joinLines, pieces_intercalate hNone]
    intro l hl
    apply hFeed
    exact (List.dropWhile_sublist _).subset ((List.rdropWhile_prefix _ _).subset hl)

end ScenarioRunner.Text
