import ScenarioRunner.Proofs.Text.TerminalCodes

/-!
# What stripping leaves

Codes and zero-width characters are removed in one pass, and what stood around them moves together. Main statement: a
stripped text has no zero-width character, and it has a colour code exactly if the text had a torn one, a code with
marks inside it. Exactly then a second pass removes more.
-/

namespace ScenarioRunner.Text

set_option autoImplicit false

/-- Neither a complete colour code nor a zero-width character stands in the text. -/
def IsStripped (s : List Char) : Prop :=
  ∀ m, Mark m → ¬m <:+: s

/-- A colour code with marks in it, behind its escape character and before its letter. -/
inductive TornCode : List Char → Prop
  | torn {parameters inside : List Char} {final : Char} (hParameters : ∀ c ∈ parameters, c.isDigit = true ∨ c = ';')
      (hFinal : final.isAlpha = true) (hInside : Decorates ('[' :: parameters) inside)
      (hTorn : inside ≠ '[' :: parameters) : TornCode ('\x1b' :: (inside ++ [final]))

def HasTornCode (s : List Char) : Prop :=
  ∃ code, TornCode code ∧ code <:+: s

/-! ## Cuts before an escape character -/

theorem dropWhile_append_cons {p : Char → Bool} {c : Char} (hc : p c = false) (s rest : List Char) :
    (s ++ c :: rest).dropWhile p = s.dropWhile p ++ c :: rest := by
  rw [List.dropWhile_append]
  simp only [List.isEmpty_iff]
  split
  · next hAll => rw [hAll, List.dropWhile_cons_of_neg (by simp [hc]), List.nil_append]
  · rfl

/-- No code goes on over the start of the next one. -/
theorem afterCode?_append_escape (s rest : List Char) :
    afterCode? colourCode (s ++ '\x1b' :: rest) = (afterCode? colourCode s).map (· ++ '\x1b' :: rest) := by
  cases s with
  | nil => rfl
  | cons d s =>
    by_cases hd : d = '['
    · subst hd
      simp only [List.cons_append, afterCode?]
      rw [dropWhile_append_cons (by decide), dropWhile_append_cons rfl]
      cases (s.dropWhile colourCode.isParameter).dropWhile colourCode.isIntermediate with
      | nil => rfl
      | cons e tail => cases hFinal : colourCode.isFinal e <;> simp [hFinal]
    · simp [afterCode?, hd]

theorem removeCodes_append_escape (s rest : List Char) :
    removeCodes colourCode (s ++ '\x1b' :: rest) =
      removeCodes colourCode s ++ removeCodes colourCode ('\x1b' :: rest) := by
  induction s using removeCodes.induct colourCode with
  | case1 => rw [show removeCodes colourCode [] = [] by rw [removeCodes], List.nil_append, List.nil_append]
  | case2 s tail hTail ih =>
    have hAfter := afterCode?_append_escape s rest
    rw [hTail, Option.map_some] at hAfter
    rw [List.cons_append, removeCodes_code hAfter, removeCodes_code hTail, ih]
  | case3 s hNone ih =>
    have hAfter := afterCode?_append_escape s rest
    rw [hNone, Option.map_none] at hAfter
    rw [List.cons_append, removeCodes_escape hAfter, removeCodes_escape hNone, ih, List.cons_append]
  | case4 d s hd ih => rw [List.cons_append, removeCodes_cons _ hd, removeCodes_cons s hd, ih, List.cons_append]

theorem stripCodes_append_escape (s rest : List Char) :
    stripCodes (s ++ '\x1b' :: rest) = stripCodes s ++ stripCodes ('\x1b' :: rest) := by
  rw [stripCodes, removeCodes_append_escape, List.filter_append, stripCodes, stripCodes]

theorem stripCodes_code {s rest : List Char} (h : afterCode? colourCode s = some rest) :
    stripCodes ('\x1b' :: s) = stripCodes rest := by
  rw [stripCodes, removeCodes_code h, stripCodes]

theorem stripCodes_escape {s : List Char} (h : afterCode? colourCode s = none) :
    stripCodes ('\x1b' :: s) = '\x1b' :: stripCodes s := by
  rw [stripCodes, removeCodes_escape h, List.filter_cons_of_pos (by decide), stripCodes]

theorem exists_mark_of_afterCode? {s rest : List Char} (h : afterCode? colourCode s = some rest) :
    ∃ code, Mark ('\x1b' :: code) ∧ s = code ++ rest := by
  unfold afterCode? at h
  split at h
  · next s =>
    split at h
    · cases h
    · next final tail hTail =>
      split_ifs at h with hFinal
      cases h
      have hBetween : (s.dropWhile colourCode.isParameter).dropWhile colourCode.isIntermediate =
          s.dropWhile colourCode.isParameter := dropWhile_eq_self fun _ _ => rfl
      rw [hBetween] at hTail
      refine ⟨'[' :: (s.takeWhile colourCode.isParameter ++ [final]), .colour ?_ hFinal, ?_⟩
      · intro c hc
        simpa [colourCode] using List.mem_takeWhile_imp hc
      · rw [List.cons_append, List.append_assoc, List.singleton_append, ← hTail, List.takeWhile_append_dropWhile]
  · cases h

/-! ## The marks that are removed -/

theorem isZeroWidth_of_mem_stripCodes {s : List Char} : ∀ c ∈ stripCodes s, isZeroWidth c = false := by
  intro c hc
  simpa using (List.mem_filter.mp hc).2

/-- Every text is what stripping leaves of it, with marks put in. -/
theorem decorates_stripCodes (s : List Char) : Decorates (stripCodes s) s := by
  induction s using removeCodes.induct colourCode with
  | case1 =>
    rw [stripCodes, removeCodes]
    exact .nil
  | case2 s rest hRest ih =>
    obtain ⟨code, hMark, rfl⟩ := exists_mark_of_afterCode? hRest
    rw [stripCodes_code hRest]
    exact .mark hMark ih
  | case3 s hNone ih =>
    rw [stripCodes_escape hNone]
    exact .char '\x1b' ih
  | case4 c s hc ih =>
    rw [stripCodes_cons s hc]
    split
    · next hWidth => exact .mark (.zeroWidth hWidth) ih
    · exact .char c ih

theorem Decorates.length_le {s t : List Char} (h : Decorates s t) : s.length ≤ t.length := by
  induction h with
  | nil => exact Nat.le_refl 0
  | char c h ih => exact Nat.succ_le_succ ih
  | @mark m s t hMark h ih =>
    rw [List.length_append]
    exact Nat.le_trans ih (Nat.le_add_left _ _)

theorem Decorates.exists_of_append_cons {before after t : List Char} {c : Char} (h : Decorates (before ++ c :: after) t) :
    ∃ x y, t = x ++ c :: y ∧ Decorates before x ∧ Decorates after y := by
  generalize hs : before ++ c :: after = s at h
  induction h generalizing before with
  | nil => simp at hs
  | @char d s t h ih =>
    cases before with
    | nil =>
      obtain ⟨rfl, rfl⟩ := List.cons.inj hs
      exact ⟨[], t, rfl, .nil, h⟩
    | cons e before =>
      obtain ⟨rfl, hRest⟩ := List.cons.inj hs
      obtain ⟨x, y, rfl, hBefore, hAfter⟩ := ih hRest
      exact ⟨e :: x, y, rfl, .char e hBefore, hAfter⟩
  | @mark m s t hMark h ih =>
    obtain ⟨x, y, rfl, hBefore, hAfter⟩ := ih hs
    exact ⟨m ++ x, y, (List.append_assoc _ _ _).symm, .mark hMark hBefore, hAfter⟩

/-- If marks have been put in at all, there is a first one. -/
theorem Decorates.eq_or_exists_mark {s t : List Char} (h : Decorates s t) :
    t = s ∨ ∃ before m rest, t = before ++ m ++ rest ∧ before <+: s ∧ Mark m := by
  induction h with
  | nil => exact .inl rfl
  | char c h ih =>
    rcases ih with rfl | ⟨before, m, rest, rfl, hBefore, hMark⟩
    · exact .inl rfl
    · exact .inr ⟨c :: before, m, rest, rfl, List.cons_prefix_cons.mpr ⟨rfl, hBefore⟩, hMark⟩
  | @mark m s t hMark h ih => exact .inr ⟨[], m, t, rfl, List.nil_prefix, hMark⟩

/-- A text is its own stripped form exactly if there is nothing to remove. -/
theorem stripCodes_eq_self_iff (s : List Char) : stripCodes s = s ↔ IsStripped s := by
  constructor
  · rintro hSelf m hMark ⟨before, after, rfl⟩
    cases hMark with
    | @colour parameters final hParameters hFinal =>
      have hMark : Mark ('\x1b' :: '[' :: (parameters ++ [final])) := .colour hParameters hFinal
      have hStripped := stripCodes_append_escape before ('[' :: (parameters ++ [final]) ++ after)
      rw [← List.cons_append, ← List.append_assoc, hSelf, stripCodes_mark after hMark] at hStripped
      have hLength := congrArg List.length hStripped
      have hBefore := (decorates_stripCodes before).length_le
      have hAfter := (decorates_stripCodes after).length_le
      simp only [List.length_append, List.length_cons] at hLength
      omega
    | @zeroWidth c hWidth =>
      have hNone := isZeroWidth_of_mem_stripCodes c (by rw [hSelf]; simp)
      rw [hWidth] at hNone
      cases hNone
  · intro hStripped
    rcases (decorates_stripCodes s).eq_or_exists_mark with hSelf | ⟨before, m, rest, hs, -, hMark⟩
    · exact hSelf.symm
    · exact absurd ⟨before, rest, hs.symm⟩ (hStripped m hMark)

/-! ## Torn codes -/

/-- What stands in a code behind its escape character is no escape character itself, and has a width. -/
theorem unmarked_of_inCode {c : Char} (h : c = '[' ∨ c.isDigit = true ∨ c = ';' ∨ c.isAlpha = true) :
    c ≠ '\x1b' ∧ isZeroWidth c = false := by
  have hCode : 32 ≤ c.toNat ∧ c.toNat < 128 := by
    rcases h with rfl | h | rfl | h
    · decide
    · have hNumber := toNat_of_ascii h
      omega
    · decide
    · have hLetter := toNat_of_isAlpha h
      omega
  constructor
  · rintro rfl
    exact absurd hCode (by decide)
  · rw [Bool.eq_false_iff]
    intro hWidth
    simp only [isZeroWidth, Bool.or_eq_true, Bool.and_eq_true, decide_eq_true_eq, beq_iff_eq] at hWidth
    omega

theorem isUnmarked_of_inCode {s : List Char}
    (h : ∀ c ∈ s, c = '[' ∨ c.isDigit = true ∨ c = ';' ∨ c.isAlpha = true) : IsUnmarked s :=
  ⟨fun hEscape => (unmarked_of_inCode (h _ hEscape)).1 rfl, fun c hc => (unmarked_of_inCode (h c hc)).2⟩

theorem Mark.exists_cons {m : List Char} (h : Mark m) :
    ∃ c rest, m = c :: rest ∧ ¬(c = '[' ∨ c.isDigit = true ∨ c = ';' ∨ c.isAlpha = true) := by
  cases h with
  | colour hParameters hFinal => exact ⟨_, _, rfl, fun hCode => (unmarked_of_inCode hCode).1 rfl⟩
  | @zeroWidth c hWidth =>
    refine ⟨c, [], rfl, fun hCode => ?_⟩
    rw [(unmarked_of_inCode hCode).2] at hWidth
    cases hWidth

/-- A torn code is none: the first mark in it stands where a code would go on. -/
theorem afterCode?_torn {parameters inside : List Char} (hParameters : ∀ c ∈ parameters, c.isDigit = true ∨ c = ';')
    (hInside : Decorates ('[' :: parameters) inside) (hTorn : inside ≠ '[' :: parameters) (rest : List Char) :
    afterCode? colourCode (inside ++ rest) = none := by
  obtain ⟨before, m, after, rfl, hBefore, hMark⟩ := hInside.eq_or_exists_mark.resolve_left hTorn
  obtain ⟨c, tail, rfl, hOut⟩ := hMark.exists_cons
  simp only [not_or, Bool.not_eq_true] at hOut
  obtain ⟨hBracket, hDigit, hSign, hLetter⟩ := hOut
  rcases List.prefix_cons_iff.mp hBefore with rfl | ⟨run, rfl, hRun⟩
  · simp [afterCode?, hBracket]
  · have hParameter : ∀ d ∈ run, colourCode.isParameter d = true := by
      intro d hd
      simpa [colourCode] using hParameters d (hRun.subset hd)
    have hEnd : colourCode.isParameter c = false := by simp [colourCode, hDigit, hSign]
    have hBetween : colourCode.isIntermediate c = false := rfl
    have hFinal : colourCode.isFinal c = false := hLetter
    simp only [List.cons_append, List.append_assoc, afterCode?]
    rw [dropWhile_append hParameter (head_cons hEnd _), List.dropWhile_cons_of_neg (by simp [hBetween])]
    simp [hFinal]

/-- An escape character that is left stood before something that was no code. -/
theorem exists_escape_of_stripCodes {s before after : List Char} (h : stripCodes s = before ++ '\x1b' :: after) :
    ∃ x y, s = x ++ '\x1b' :: y ∧ afterCode? colourCode y = none ∧ stripCodes y = after := by
  induction s using removeCodes.induct colourCode generalizing before with
  | case1 =>
    rw [stripCodes, removeCodes] at h
    simp at h
  | case2 s rest hRest ih =>
    obtain ⟨code, hMark, rfl⟩ := exists_mark_of_afterCode? hRest
    rw [stripCodes_code hRest] at h
    obtain ⟨x, y, rfl, hNone, hAfter⟩ := ih h
    exact ⟨'\x1b' :: (code ++ x), y, by simp, hNone, hAfter⟩
  | case3 s hNone ih =>
    rw [stripCodes_escape hNone] at h
    cases before with
    | nil => exact ⟨[], s, rfl, hNone, (List.cons.inj h).2⟩
    | cons d before =>
      obtain ⟨x, y, rfl, hOther, hAfter⟩ := ih (List.cons.inj h).2
      exact ⟨'\x1b' :: x, y, rfl, hOther, hAfter⟩
  | case4 c s hc ih =>
    have hRest : ∃ before, stripCodes s = before ++ '\x1b' :: after := by
      rw [stripCodes_cons s hc] at h
      split at h
      · exact ⟨before, h⟩
      · cases before with
        | nil => exact absurd (List.cons.inj h).1 hc
        | cons d before => exact ⟨before, (List.cons.inj h).2⟩
    obtain ⟨before, hRest⟩ := hRest
    obtain ⟨x, y, rfl, hNone, hAfter⟩ := ih hRest
    exact ⟨c :: x, y, rfl, hNone, hAfter⟩

theorem hasTornCode_of_mark {s m : List Char} (hMark : Mark m) (hLeft : m <:+: stripCodes s) : HasTornCode s := by
  obtain ⟨before, after, hLeft⟩ := hLeft
  cases hMark with
  | @colour parameters final hParameters hFinal =>
    have hEscape : stripCodes s = before ++ '\x1b' :: ('[' :: parameters ++ final :: after) := by
      rw [← hLeft]
      simp
    obtain ⟨x, y, rfl, hNone, hAfter⟩ := exists_escape_of_stripCodes hEscape
    have hDecorates := decorates_stripCodes y
    rw [hAfter] at hDecorates
    obtain ⟨inside, rest, rfl, hInside, -⟩ := hDecorates.exists_of_append_cons
    refine ⟨_, .torn hParameters hFinal hInside ?_, x, rest, by simp⟩
    -- Without marks inside it the code would have been removed.
    rintro rfl
    rw [List.cons_append, afterCode?_colour rest hParameters hFinal] at hNone
    cases hNone
  | @zeroWidth c hWidth =>
    have hNone := isZeroWidth_of_mem_stripCodes c (by rw [← hLeft]; simp)
    rw [hWidth] at hNone
    cases hNone

/-- The marks inside a torn code are removed, so that a code is left. -/
theorem exists_mark_of_hasTornCode {s : List Char} (h : HasTornCode s) : ∃ m, Mark m ∧ m <:+: stripCodes s := by
  obtain ⟨code, hCode, before, after, rfl⟩ := h
  cases hCode with
  | @torn parameters inside final hParameters hFinal hInside hTorn =>
    have hNone := afterCode?_torn hParameters hInside hTorn (final :: after)
    have hUnmarked : IsUnmarked ('[' :: parameters) := by
      refine isUnmarked_of_inCode (List.forall_mem_cons.mpr ⟨.inl rfl, fun c hc => ?_⟩)
      exact .inr ((hParameters c hc).imp_right .inl)
    obtain ⟨hEscape, hWidth⟩ := unmarked_of_inCode (.inr (.inr (.inr hFinal)))
    refine ⟨_, .colour hParameters hFinal, stripCodes before, stripCodes after, ?_⟩
    calc stripCodes before ++ '\x1b' :: '[' :: (parameters ++ [final]) ++ stripCodes after
      _ = stripCodes before ++ '\x1b' :: ('[' :: parameters ++ final :: stripCodes after) := by simp
      _ = stripCodes before ++ '\x1b' :: stripCodes (inside ++ final :: after) := by
        rw [hInside.stripCodes_append hUnmarked, stripCodes_cons _ hEscape, hWidth]
        rfl
      _ = stripCodes (before ++ '\x1b' :: (inside ++ final :: after)) := by
        rw [stripCodes_append_escape, stripCodes_escape hNone]
      _ = stripCodes (before ++ '\x1b' :: (inside ++ [final]) ++ after) := by simp

/-- Stripping leaves no zero-width character. It leaves a colour code exactly if the text has a torn one, and exactly
then stripping once more removes more. -/
theorem isStripped_stripCodes_iff (s : List Char) :
    (∀ c ∈ stripCodes s, isZeroWidth c = false) ∧
      (IsStripped (stripCodes s) ↔ ¬HasTornCode s) ∧
      (stripCodes (stripCodes s) = stripCodes s ↔ ¬HasTornCode s) := by
  have hStripped : IsStripped (stripCodes s) ↔ ¬HasTornCode s := by
    constructor
    · intro h hTorn
      obtain ⟨m, hMark, hLeft⟩ := exists_mark_of_hasTornCode hTorn
      exact h m hMark hLeft
    · intro h m hMark hLeft
      exact h (hasTornCode_of_mark hMark hLeft)
  exact ⟨isZeroWidth_of_mem_stripCodes, hStripped, (stripCodes_eq_self_iff _).trans hStripped⟩

/-- A zero-width character behind the bracket, and a code inside another one. -/
theorem isStripped_stripCodes_of_two_tears :
    HasTornCode "\x1b[\u200B31mred\x1b[3\x1b[0m1m".toList ∧ 'r' ∈ stripCodes "\x1b[\u200B31mred\x1b[3\x1b[0m1m".toList ∧
      isZeroWidth 'r' = false ∧ ¬IsStripped (stripCodes "\x1b[\u200B31mred\x1b[3\x1b[0m1m".toList) := by
  have hDigits : ∀ c ∈ "31".toList, c.isDigit = true ∨ c = ';' := by simp
  have hInside : Decorates ('[' :: "31".toList) "[\u200B31".toList :=
    .char '[' (.mark (m := ['\u200B']) (.zeroWidth (by decide)) (.refl ['3', '1']))
  have hCode : TornCode ('\x1b' :: ("[\u200B31".toList ++ ['m'])) :=
    .torn hDigits (by decide) hInside (by decide)
  have hTorn : HasTornCode "\x1b[\u200B31mred\x1b[3\x1b[0m1m".toList :=
    ⟨_, hCode, [], "red\x1b[3\x1b[0m1m".toList, rfl⟩
  have hLeft : 'r' ∈ stripCodes "\x1b[\u200B31mred\x1b[3\x1b[0m1m".toList := by decide +kernel
  obtain ⟨hWidth, hStripped, -⟩ := isStripped_stripCodes_iff "\x1b[\u200B31mred\x1b[3\x1b[0m1m".toList
  exact ⟨hTorn, hLeft, hWidth _ hLeft, fun h => hStripped.mp h hTorn⟩

/-- The zero-width character goes only after the codes, and a code is left. -/
theorem not_isStripped_of_joined_code :
    ¬IsStripped (stripCodes "\x1b[\u200B31mred".toList) ∧
      stripCodes (stripCodes "\x1b[\u200B31mred".toList) ≠ stripCodes "\x1b[\u200B31mred".toList := by
  have hOnce : stripCodes "\x1b[\u200B31mred".toList = "\x1b[31mred".toList := by decide +kernel
  have hTwice : stripCodes "\x1b[31mred".toList = "red".toList := by decide +kernel
  have hDigits : ∀ c ∈ "31".toList, c.isDigit = true ∨ c = ';' := by simp
  have hMark : Mark ('\x1b' :: '[' :: ("31".toList ++ ['m'])) := .colour hDigits (by decide)
  rw [hOnce, hTwice]
  exact ⟨fun h => h _ hMark ⟨[], "red".toList, rfl⟩, by decide⟩

end ScenarioRunner.Text
