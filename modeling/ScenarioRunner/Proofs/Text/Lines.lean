import ScenarioRunner.Text.Lines

/-!
# Cutting a text into its lines

A text is its ended lines and its open line. Main statement: what is put behind a text only continues its open line, so
that the lines that have ended already stay as they are.
-/

namespace ScenarioRunner.Text

set_option autoImplicit false

theorem endedLines_append_openLine (s : List Char) : endedLines s ++ [openLine s] = pieces '\n' s := by
  have hLast := List.getLast?_eq_some_getLast (pieces_ne_nil '\n' s)
  rw [endedLines, openLine, hLast]
  exact List.dropLast_concat_getLast (pieces_ne_nil '\n' s)

/-- The two parts of a cut are determined by it. -/
theorem eq_parts_of_pieces {s : List Char} (lines : List (List Char)) (tail : List Char)
    (h : pieces '\n' s = lines ++ [tail]) : endedLines s = lines ∧ openLine s = tail := by
  rw [endedLines, openLine, h]
  exact ⟨List.dropLast_concat, by simp⟩

/-- A text goes on where its open line ends. -/
theorem pieces_append (s t : List Char) : pieces '\n' (s ++ t) = endedLines s ++ pieces '\n' (openLine s ++ t) := by
  induction s with
  | nil => rfl
  | cons c s ih =>
    have hCut := endedLines_append_openLine s
    by_cases hc : c = '\n'
    · have hPieces : pieces '\n' (c :: s) = [] :: endedLines s ++ [openLine s] := by
        rw [pieces_cons, if_pos hc, List.cons_append, hCut]
      obtain ⟨hEnded, hOpen⟩ := eq_parts_of_pieces ([] :: endedLines s) (openLine s) hPieces
      rw [hEnded, hOpen, List.cons_append, pieces_cons, if_pos hc, ih]
      rfl
    · have hPieces : pieces '\n' (c :: s) = pushFront c (endedLines s ++ [openLine s]) := by
        rw [pieces_cons, if_neg hc, hCut]
      rw [List.cons_append, pieces_cons, if_neg hc, ih]
      cases hEnded : endedLines s with
      | nil =>
        rw [hEnded] at hPieces
        obtain ⟨hNone, hOpen⟩ := eq_parts_of_pieces [] (c :: openLine s) hPieces
        rw [hNone, hOpen, List.nil_append, List.nil_append, List.cons_append, pieces_cons, if_neg hc]
      | cons first lines =>
        rw [hEnded] at hPieces
        obtain ⟨hSome, hOpen⟩ := eq_parts_of_pieces ((c :: first) :: lines) (openLine s) hPieces
        rw [hSome, hOpen]
        rfl

theorem endedLines_append (s t : List Char) : endedLines (s ++ t) = endedLines s ++ endedLines (openLine s ++ t) := by
  have h := pieces_append s t
  rw [← endedLines_append_openLine (openLine s ++ t), ← List.append_assoc] at h
  exact (eq_parts_of_pieces _ _ h).1

theorem openLine_append (s t : List Char) : openLine (s ++ t) = openLine (openLine s ++ t) := by
  have h := pieces_append s t
  rw [← endedLines_append_openLine (openLine s ++ t), ← List.append_assoc] at h
  exact (eq_parts_of_pieces _ _ h).2

theorem pieces_of_notMem {sep : Char} {s : List Char} (h : sep ∉ s) : pieces sep s = [s] := by
  induction s with
  | nil => rfl
  | cons c s ih =>
    rw [List.mem_cons, not_or] at h
    rw [pieces_cons, if_neg (Ne.symm h.1), ih h.2]
    rfl

/-- A separator between two texts is a cut between their pieces. -/
theorem pieces_append_cons (sep : Char) (s t : List Char) :
    pieces sep (s ++ sep :: t) = pieces sep s ++ pieces sep t := by
  induction s with
  | nil => rw [List.nil_append, pieces_cons, if_pos rfl, pieces_nil, List.singleton_append]
  | cons c s ih =>
    rw [List.cons_append, pieces_cons, pieces_cons, ih]
    split
    · rfl
    · cases hPieces : pieces sep s with
      | nil => exact absurd hPieces (pieces_ne_nil sep s)
      | cons first rest => rfl

theorem pieces_append_cons_of_notMem {sep : Char} {s : List Char} (h : sep ∉ s) (t : List Char) :
    pieces sep (s ++ sep :: t) = s :: pieces sep t := by
  rw [pieces_append_cons, pieces_of_notMem h, List.singleton_append]

/-- What is put together with separators is cut back into the same pieces. -/
theorem pieces_intercalate {sep : Char} {lines : List (List Char)} (hLines : lines ≠ [])
    (h : ∀ line ∈ lines, sep ∉ line) : pieces sep ([sep].intercalate lines) = lines := by
  induction lines with
  | nil => exact absurd rfl hLines
  | cons line lines ih =>
    have hLine := h line List.mem_cons_self
    cases lines with
    | nil => rw [List.intercalate_singleton, pieces_of_notMem hLine]
    | cons next lines =>
      rw [List.intercalate_cons_cons, List.append_assoc, List.singleton_append, pieces_append_cons_of_notMem hLine,
        ih (List.cons_ne_nil next lines) fun l hl => h l (List.mem_cons_of_mem line hl)]

theorem of_mem_pieces {sep : Char} {s piece : List Char} (h : piece ∈ pieces sep s) : sep ∉ piece ∧ piece ⊆ s := by
  induction s generalizing piece with
  | nil =>
    obtain rfl := List.mem_singleton.mp h
    exact ⟨List.not_mem_nil, List.Subset.refl []⟩
  | cons c s ih =>
    rw [pieces_cons] at h
    split at h
    · rcases List.mem_cons.mp h with rfl | h
      · exact ⟨List.not_mem_nil, List.nil_subset (c :: s)⟩
      · exact ⟨(ih h).1, List.subset_cons_of_subset c (ih h).2⟩
    · next hc =>
      cases hPieces : pieces sep s with
      | nil => exact absurd hPieces (pieces_ne_nil sep s)
      | cons first rest =>
        rw [hPieces] at h ih
        rcases List.mem_cons.mp h with rfl | h
        · obtain ⟨hNotMem, hSubset⟩ := ih List.mem_cons_self
          exact ⟨by simp [Ne.symm hc, hNotMem], List.cons_subset_cons c hSubset⟩
        · obtain ⟨hNotMem, hSubset⟩ := ih (List.mem_cons_of_mem first h)
          exact ⟨hNotMem, List.subset_cons_of_subset c hSubset⟩

/-- Whole lines are cut back into themselves, and nothing is left open after them. -/
theorem parts_of_lines (lines : List (List Char)) (h : ∀ line ∈ lines, '\n' ∉ line) :
    endedLines (lines.flatMap (· ++ ['\n'])) = lines ∧ openLine (lines.flatMap (· ++ ['\n'])) = [] := by
  apply eq_parts_of_pieces
  induction lines with
  | nil => rfl
  | cons line lines ih =>
    rw [List.flatMap_cons, List.append_assoc, List.singleton_append,
      pieces_append_cons_of_notMem (h line List.mem_cons_self), ih fun l hl => h l (List.mem_cons_of_mem _ hl)]
    rfl

/-- After whole lines, the rest of a text without a line feed is left open. -/
theorem parts_of_lines_append (lines : List (List Char)) {part : List Char} (hLines : ∀ line ∈ lines, '\n' ∉ line)
    (hPart : '\n' ∉ part) :
    endedLines (lines.flatMap (· ++ ['\n']) ++ part) = lines ∧
      openLine (lines.flatMap (· ++ ['\n']) ++ part) = part := by
  obtain ⟨hEnded, hOpen⟩ := parts_of_lines lines hLines
  apply eq_parts_of_pieces
  rw [pieces_append, hEnded, hOpen, List.nil_append, pieces_of_notMem hPart]

theorem notMem_endedLines (s : List Char) : ∀ line ∈ endedLines s, '\n' ∉ line := by
  intro line hLine
  apply (of_mem_pieces (s := s) _).1
  rw [← endedLines_append_openLine]
  exact List.mem_append_left _ hLine

theorem notMem_openLine (s : List Char) : '\n' ∉ openLine s := by
  apply (of_mem_pieces (s := s) _).1
  rw [← endedLines_append_openLine]
  exact List.mem_append_right _ List.mem_cons_self

/-- A text is its lines, each with its line feed, and what stands after the last one. -/
theorem flatMap_endedLines (s : List Char) : (endedLines s).flatMap (· ++ ['\n']) ++ openLine s = s := by
  obtain ⟨hEnded, hOpen⟩ := parts_of_lines_append (endedLines s) (notMem_endedLines s) (notMem_openLine s)
  have hPieces : pieces '\n' ((endedLines s).flatMap (· ++ ['\n']) ++ openLine s) = pieces '\n' s := by
    rw [← endedLines_append_openLine, hEnded, hOpen, endedLines_append_openLine]
  rw [← intercalate_pieces '\n' (_ ++ _), hPieces, intercalate_pieces]

end ScenarioRunner.Text
