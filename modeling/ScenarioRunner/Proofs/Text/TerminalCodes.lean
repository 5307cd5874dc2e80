import ScenarioRunner.Proofs.Text.Numeral
import ScenarioRunner.Proofs.Text.Plain

/-!
# What a terminal adds to a text

Colour codes and zero-width characters are the marks of a text. Main statement: a text without marks is got back from
the same text with marks put in anywhere. A character that ends no code, put behind a text, stays there.
-/

namespace ScenarioRunner.Text

set_option autoImplicit false

/-- A complete colour code, or a zero-width character. -/
inductive Mark : List Char → Prop
  | colour {parameters : List Char} {final : Char} (hParameters : ∀ c ∈ parameters, c.isDigit = true ∨ c = ';')
      (hFinal : final.isAlpha = true) : Mark ('\x1b' :: '[' :: (parameters ++ [final]))
  | zeroWidth {c : Char} (h : isZeroWidth c = true) : Mark [c]

/-- The second text is the first one with marks put in, at any places. -/
inductive Decorates : List Char → List Char → Prop
  | nil : Decorates [] []
  | char (c : Char) {s t : List Char} (h : Decorates s t) : Decorates (c :: s) (c :: t)
  | mark {m s t : List Char} (hMark : Mark m) (h : Decorates s t) : Decorates s (m ++ t)

theorem Decorates.refl (s : List Char) : Decorates s s := by
  induction s with
  | nil => exact .nil
  | cons c s ih => exact .char c ih

theorem Decorates.append {s t s' t' : List Char} (h : Decorates s t) (h' : Decorates s' t') :
    Decorates (s ++ s') (t ++ t') := by
  induction h with
  | nil => exact h'
  | char c _ ih => exact .char c ih
  | mark hMark _ ih =>
    rw [List.append_assoc]
    exact .mark hMark ih

structure IsUnmarked (s : List Char) : Prop where
  escape_notMem : '\x1b' ∉ s
  isZeroWidth_eq_false : ∀ c ∈ s, isZeroWidth c = false

instance (s : List Char) : Decidable (IsUnmarked s) :=
  decidable_of_iff ('\x1b' ∉ s ∧ (s.all fun c => !isZeroWidth c) = true)
    ⟨fun h => ⟨h.1, by simpa using h.2⟩, fun h => ⟨h.1, by simpa using h.2⟩⟩

theorem isUnmarked_cons_iff {c : Char} {s : List Char} :
    IsUnmarked (c :: s) ↔ (c ≠ '\x1b' ∧ isZeroWidth c = false) ∧ IsUnmarked s := by
  constructor
  · intro h
    exact ⟨⟨fun hc => h.escape_notMem (hc ▸ List.mem_cons_self), h.isZeroWidth_eq_false c List.mem_cons_self⟩,
      fun hMem => h.escape_notMem (List.mem_cons_of_mem c hMem),
      fun d hd => h.isZeroWidth_eq_false d (List.mem_cons_of_mem c hd)⟩
  · rintro ⟨⟨hc, hWidth⟩, hs⟩
    exact ⟨by simp [Ne.symm hc, hs.escape_notMem], List.forall_mem_cons.mpr ⟨hWidth, hs.isZeroWidth_eq_false⟩⟩

/-! ## Removing marks -/

section

variable {shape : CodeShape}

theorem removeCodes_cons {c : Char} (s : List Char) (hc : c ≠ '\x1b') :
    removeCodes shape (c :: s) = c :: removeCodes shape s := by
  rw [removeCodes, if_neg hc]

theorem removeCodes_code {s rest : List Char} (h : afterCode? shape s = some rest) :
    removeCodes shape ('\x1b' :: s) = removeCodes shape rest := by
  rw [removeCodes, if_pos rfl]
  split
  · next hRest =>
    rw [h, Option.some.injEq] at hRest
    rw [hRest]
  · next hNone =>
    rw [h] at hNone
    cases hNone

theorem removeCodes_escape {s : List Char} (h : afterCode? shape s = none) :
    removeCodes shape ('\x1b' :: s) = '\x1b' :: removeCodes shape s := by
  rw [removeCodes, if_pos rfl]
  split
  · next hRest =>
    rw [h] at hRest
    cases hRest
  · rfl

end

theorem stripCodes_cons {c : Char} (s : List Char) (hc : c ≠ '\x1b') :
    stripCodes (c :: s) = if isZeroWidth c then stripCodes s else c :: stripCodes s := by
  rw [stripCodes, removeCodes_cons s hc, List.filter_cons]
  cases isZeroWidth c <;> rfl

theorem IsUnmarked.stripCodes_append {s : List Char} (h : IsUnmarked s) (t : List Char) :
    stripCodes (s ++ t) = s ++ stripCodes t := by
  induction s with
  | nil => rfl
  | cons c s ih =>
    obtain ⟨⟨hc, hWidth⟩, hs⟩ := isUnmarked_cons_iff.mp h
    rw [List.cons_append, stripCodes_cons _ hc, hWidth, ih hs]
    rfl

theorem toNat_of_isAlpha {c : Char} (h : c.isAlpha = true) :
    (65 ≤ c.toNat ∧ c.toNat ≤ 90) ∨ (97 ≤ c.toNat ∧ c.toNat ≤ 122) := by
  rcases Bool.or_eq_true_iff.mp h with hUpper | hLower
  · obtain ⟨hFirst, hLast⟩ := of_decide_eq_true hUpper
    exact .inl ⟨UInt32.le_iff_toNat_le.mp hFirst, UInt32.le_iff_toNat_le.mp hLast⟩
  · obtain ⟨hFirst, hLast⟩ := Bool.and_eq_true_iff.mp hLower
    exact .inr ⟨UInt32.le_iff_toNat_le.mp (of_decide_eq_true hFirst), UInt32.le_iff_toNat_le.mp (of_decide_eq_true hLast)⟩

theorem isDigit_eq_false_of_isAlpha {c : Char} (h : c.isAlpha = true) : c.isDigit = false := by
  by_contra hDigit
  rw [Bool.not_eq_false] at hDigit
  have hLetter := toNat_of_isAlpha h
  have hNumber := toNat_of_ascii hDigit
  omega

/-- A letter is no parameter, so that the parameters of a colour code end before its letter. -/
theorem afterCode?_colour {parameters : List Char} {final : Char} (t : List Char)
    (hParameters : ∀ c ∈ parameters, c.isDigit = true ∨ c = ';') (hFinal : final.isAlpha = true) :
    afterCode? colourCode ('[' :: (parameters ++ final :: t)) = some t := by
  have hRun : ∀ c ∈ parameters, colourCode.isParameter c = true := by
    intro c hc
    simpa [colourCode] using hParameters c hc
  have hEnd : ∀ c ∈ (final :: t).head?, colourCode.isParameter c = false := by
    rintro _ ⟨⟩
    have hSign : final ≠ ';' := by
      rintro rfl
      exact absurd hFinal (by decide)
    simp [colourCode, isDigit_eq_false_of_isAlpha hFinal, hSign]
  have hLetter : colourCode.isFinal final = true := hFinal
  have hBetween : colourCode.isIntermediate final = false := rfl
  simp only [afterCode?, dropWhile_append hRun hEnd, List.dropWhile_cons, hBetween, Bool.false_eq_true, if_false,
    hLetter, if_true]

theorem stripCodes_mark {m : List Char} (t : List Char) (h : Mark m) : stripCodes (m ++ t) = stripCodes t := by
  cases h with
  | @colour parameters final hParameters hFinal =>
    rw [List.cons_append, List.cons_append, List.append_assoc, List.singleton_append, stripCodes,
      removeCodes_code (afterCode?_colour t hParameters hFinal), stripCodes]
  | @zeroWidth c hWidth =>
    have hc : c ≠ '\x1b' := by
      rintro rfl
      exact absurd hWidth (by decide)
    rw [List.singleton_append, stripCodes_cons t hc, if_pos hWidth]

theorem Decorates.stripCodes_append {s t : List Char} (h : Decorates s t) (hs : IsUnmarked s) (rest : List Char) :
    stripCodes (t ++ rest) = s ++ stripCodes rest := by
  induction h with
  | nil => rfl
  | char c h ih =>
    obtain ⟨⟨hc, hWidth⟩, hs⟩ := isUnmarked_cons_iff.mp hs
    rw [List.cons_append, stripCodes_cons _ hc, hWidth, ih hs]
    rfl
  | mark hMark h ih => rw [List.append_assoc, stripCodes_mark _ hMark, ih hs]

/-- Whatever marks have been put into a text without marks, they are all removed, and nothing else is. -/
theorem Decorates.stripCodes_eq {s t : List Char} (h : Decorates s t) (hs : IsUnmarked s) : stripCodes t = s := by
  have hAll := h.stripCodes_append hs []
  rw [List.append_nil] at hAll
  rw [hAll, stripCodes, removeCodes]
  exact List.append_nil s

theorem IsUnmarked.stripCodes_eq {s : List Char} (hs : IsUnmarked s) : stripCodes s = s :=
  stripCodes_of_plain hs.escape_notMem hs.isZeroWidth_eq_false

theorem Mark.notMem {m : List Char} (h : Mark m) : '\n' ∉ m := by
  intro hMem
  cases h with
  | @colour parameters final hParameters hFinal =>
    simp only [List.mem_cons, List.mem_append, List.not_mem_nil, or_false] at hMem
    rcases hMem with hMem | hMem | hMem | hMem
    · exact absurd hMem (by decide)
    · exact absurd hMem (by decide)
    · exact absurd (hParameters _ hMem) (by decide)
    · rw [← hMem] at hFinal
      exact absurd hFinal (by decide)
  | zeroWidth hWidth =>
    rw [← List.mem_singleton.mp hMem] at hWidth
    exact absurd hWidth (by decide)

/-- No mark has a line feed in it. -/
theorem Decorates.notMem {s t : List Char} (h : Decorates s t) (hs : '\n' ∉ s) : '\n' ∉ t := by
  induction h with
  | nil => exact hs
  | char c h ih =>
    rw [List.mem_cons, not_or] at hs ⊢
    exact ⟨hs.1, ih hs.2⟩
  | mark hMark h ih =>
    rw [List.mem_append, not_or]
    exact ⟨hMark.notMem, ih hs⟩

/-! ## A character behind a text -/

theorem dropWhile_concat (p : Char → Bool) (s : List Char) (c : Char) :
    (s ++ [c]).dropWhile p = if s.dropWhile p = [] then [c].dropWhile p else s.dropWhile p ++ [c] := by
  rw [List.dropWhile_append]
  simp only [List.isEmpty_iff]

section

variable {shape : CodeShape} {c : Char}

/-- A code that is not complete stays so if what follows does not end it. -/
theorem afterCode?_concat (h : shape.isFinal c = false) (s : List Char) :
    afterCode? shape (s ++ [c]) = (afterCode? shape s).map (· ++ [c]) := by
  have hLast : ∀ p : Char → Bool, [c].dropWhile p = [] ∨ [c].dropWhile p = [c] := by
    intro p
    cases hp : p c <;> simp [hp]
  cases s with
  | nil =>
    by_cases hc : c = '['
    · subst hc
      simp [afterCode?]
    · simp [afterCode?, hc]
  | cons d s =>
    by_cases hd : d = '['
    · subst hd
      simp only [List.cons_append, afterCode?]
      rw [dropWhile_concat]
      split_ifs with hParameters
      · rw [hParameters]
        rcases hLast shape.isParameter with hEq | hEq
        · simp [hEq]
        · rcases hLast shape.isIntermediate with hEq' | hEq' <;> simp [hEq, hEq', h]
      · rw [dropWhile_concat]
        split_ifs with hIntermediate
        · rw [hIntermediate]
          rcases hLast shape.isIntermediate with hEq | hEq <;> simp [hEq, h]
        · obtain ⟨e, rest, hRest⟩ := List.exists_cons_of_ne_nil hIntermediate
          rw [hRest]
          cases hFinal : shape.isFinal e <;> simp [hFinal]
    · simp [afterCode?, hd]

theorem removeCodes_concat (h : shape.isFinal c = false) (s : List Char) :
    removeCodes shape (s ++ [c]) = removeCodes shape s ++ [c] := by
  induction s using removeCodes.induct shape with
  | case1 =>
    rw [List.nil_append, show removeCodes shape [] = [] by rw [removeCodes], List.nil_append]
    by_cases hc : c = '\x1b'
    · rw [hc, removeCodes_escape rfl, removeCodes]
    · rw [removeCodes_cons [] hc, removeCodes]
  | case2 s rest hRest ih =>
    have hAfter : afterCode? shape (s ++ [c]) = some (rest ++ [c]) := by rw [afterCode?_concat h, hRest, Option.map_some]
    rw [List.cons_append, removeCodes_code hAfter, removeCodes_code hRest, ih]
  | case3 s hNone ih =>
    have hAfter : afterCode? shape (s ++ [c]) = none := by rw [afterCode?_concat h, hNone, Option.map_none]
    rw [List.cons_append, removeCodes_escape hAfter, removeCodes_escape hNone, ih, List.cons_append]
  | case4 d s hd ih => rw [List.cons_append, removeCodes_cons _ hd, removeCodes_cons s hd, ih, List.cons_append]

theorem stripCodes_concat (hFinal : colourCode.isFinal c = false) (hWidth : isZeroWidth c = false) (s : List Char) :
    stripCodes (s ++ [c]) = stripCodes s ++ [c] := by
  rw [stripCodes, removeCodes_concat hFinal, List.filter_append]
  simp [stripCodes, hWidth]

end

end ScenarioRunner.Text
