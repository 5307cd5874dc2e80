import Mathlib.Tactic.Common
import ScenarioRunner.Proofs.Text.Numeral
import ScenarioRunner.Run.Command

/-!
# What the pattern of a name accepts

A pattern is read into pieces, which fit a text from some place on. A name is cut at its placeholders, each from an
opening bracket to the next closing one. Main statement: the pattern of a name accepts exactly the texts that have its
literal parts in their order, with any text in the place of each placeholder.
-/

namespace ScenarioRunner.Run

open ScenarioRunner.Text

set_option autoImplicit false

/-! ## Patterns -/

inductive Piece where
  | start
  | stop
  | anyText
  | char (c : Char) (isEscaped : Bool)

/-- A backslash escapes only a character that means something in patterns. -/
def readPattern : List Char → List Piece
  | '\\' :: c :: p =>
    if patternSpecials.contains c then .char c true :: readPattern p else .char '\\' false :: readPattern (c :: p)
  | '.' :: '*' :: p => .anyText :: readPattern p
  | '^' :: p => .start :: readPattern p
  | '$' :: p => .stop :: readPattern p
  | c :: p => .char c false :: readPattern p
  | [] => []

inductive MatchesAt : List Piece → List Char → List Char → Prop
  | nil {before rest : List Char} : MatchesAt [] before rest
  | start {pieces : List Piece} {rest : List Char} (h : MatchesAt pieces [] rest) :
      MatchesAt (.start :: pieces) [] rest
  | stop {pieces : List Piece} {before : List Char} (h : MatchesAt pieces before []) :
      MatchesAt (.stop :: pieces) before []
  | anyText {pieces : List Piece} {before passed rest : List Char} (hPassed : '\n' ∉ passed)
      (h : MatchesAt pieces (before ++ passed) rest) : MatchesAt (.anyText :: pieces) before (passed ++ rest)
  | char {pieces : List Piece} {before rest : List Char} {c : Char} {isEscaped : Bool}
      (h : MatchesAt pieces (before ++ [c]) rest) : MatchesAt (.char c isEscaped :: pieces) before (c :: rest)

def Accepts (pattern text : String) : Prop :=
  ∃ before rest, text.toList = before ++ rest ∧ MatchesAt (readPattern pattern.toList) before rest

def charPiece (c : Char) : Piece :=
  .char c (patternSpecials.contains c)

section

variable {pieces : List Piece} {before rest : List Char}

theorem matchesAt_start_iff : MatchesAt (.start :: pieces) before rest ↔ before = [] ∧ MatchesAt pieces [] rest := by
  constructor
  · intro h
    cases h with
    | start h => exact ⟨rfl, h⟩
  · rintro ⟨rfl, h⟩
    exact .start h

theorem matchesAt_stop_iff : MatchesAt [.stop] before rest ↔ rest = [] := by
  constructor
  · intro h
    cases h with
    | stop _ => rfl
  · rintro rfl
    exact .stop .nil

theorem matchesAt_anyText_iff : MatchesAt (.anyText :: pieces) before rest ↔
    ∃ passed tail, rest = passed ++ tail ∧ '\n' ∉ passed ∧ MatchesAt pieces (before ++ passed) tail := by
  constructor
  · intro h
    cases h with
    | anyText hPassed h => exact ⟨_, _, rfl, hPassed, h⟩
  · rintro ⟨passed, tail, rfl, hPassed, h⟩
    exact .anyText hPassed h

theorem matchesAt_charPiece_iff (c : Char) : MatchesAt (charPiece c :: pieces) before rest ↔
    ∃ tail, rest = c :: tail ∧ MatchesAt pieces (before ++ [c]) tail := by
  constructor
  · intro h
    cases h with
    | char h => exact ⟨_, rfl, h⟩
  · rintro ⟨tail, rfl, h⟩
    exact .char h

theorem matchesAt_literal_iff (literal : List Char) : MatchesAt (literal.map charPiece ++ pieces) before rest ↔
    ∃ tail, rest = literal ++ tail ∧ MatchesAt pieces (before ++ literal) tail := by
  induction literal generalizing before rest with
  | nil => simp
  | cons c literal ih =>
    rw [List.map_cons, List.cons_append, matchesAt_charPiece_iff]
    constructor
    · rintro ⟨_, rfl, hRest⟩
      obtain ⟨tail, rfl, h⟩ := ih.mp hRest
      exact ⟨tail, rfl, by simpa using h⟩
    · rintro ⟨tail, rfl, h⟩
      exact ⟨literal ++ tail, rfl, ih.mpr ⟨tail, rfl, by simpa using h⟩⟩

end

/-! ## Cutting a name at its placeholders -/

def HasPlaceholder (s : List Char) : Prop :=
  ∃ before inside after, s = before ++ '<' :: (inside ++ '>' :: after)

/-- The text before the first placeholder, and for each placeholder the text between it and the next one. -/
inductive Cut : List Char → List Char → List (List Char) → Prop
  | plain {s : List Char} (h : ¬HasPlaceholder s) : Cut s s []
  -- No bracket before the first placeholder can open one, since the closing bracket would close it.
  | placeholder {first inside rest next : List Char} {more : List (List Char)} (hFirst : '<' ∉ first)
      (hInside : '>' ∉ inside) (h : Cut rest next more) :
      Cut (first ++ '<' :: (inside ++ '>' :: rest)) first (next :: more)

def woven (first : List Char) (more fillings : List (List Char)) : List Char :=
  first ++ (List.zipWith (· ++ ·) fillings more).flatten

theorem hasPlaceholder_cons_iff (c : Char) (s : List Char) :
    HasPlaceholder (c :: s) ↔ (c = '<' ∧ '>' ∈ s) ∨ HasPlaceholder s := by
  constructor
  · rintro ⟨before, inside, after, h⟩
    cases before with
    | nil =>
      cases h
      exact .inl ⟨rfl, by simp⟩
    | cons d before =>
      cases h
      exact .inr ⟨before, inside, after, rfl⟩
  · rintro (⟨rfl, hClose⟩ | ⟨before, inside, after, rfl⟩)
    · obtain ⟨inside, after, rfl⟩ := List.append_of_mem hClose
      exact ⟨[], inside, after, rfl⟩
    · exact ⟨c :: before, inside, after, rfl⟩

instance decidableHasPlaceholder : (s : List Char) → Decidable (HasPlaceholder s)
  | [] => .isFalse (by rintro ⟨before, inside, after, h⟩; simp at h)
  | c :: s =>
    have := decidableHasPlaceholder s
    decidable_of_iff _ (hasPlaceholder_cons_iff c s).symm

theorem exists_first_of_hasPlaceholder {s : List Char} (h : HasPlaceholder s) :
    ∃ first inside rest, s = first ++ '<' :: (inside ++ '>' :: rest) ∧ '<' ∉ first ∧ '>' ∉ inside := by
  obtain ⟨before, inside, after, rfl⟩ := h
  -- The first opening bracket has a closing one behind it, since a later one has.
  obtain ⟨first, tail, hFirst, hEq, hClose⟩ : ∃ first tail, '<' ∉ first ∧
      before ++ '<' :: (inside ++ '>' :: after) = first ++ '<' :: tail ∧ '>' ∈ tail := by
    by_cases hMem : '<' ∈ before
    · obtain ⟨first, tail, rfl, hFirst⟩ := List.eq_append_cons_of_mem hMem
      exact ⟨first, tail ++ '<' :: (inside ++ '>' :: after), hFirst, by simp, by simp⟩
    · exact ⟨before, inside ++ '>' :: after, hMem, rfl, by simp⟩
  obtain ⟨inside, rest, rfl, hInside⟩ := List.eq_append_cons_of_mem hClose
  exact ⟨first, inside, rest, hEq, hFirst, hInside⟩

theorem exists_cut (s : List Char) : ∃ first more, Cut s first more := by
  induction hLength : s.length using Nat.strong_induction_on generalizing s with
  | _ n ih =>
    by_cases h : HasPlaceholder s
    · obtain ⟨first, inside, rest, rfl, hFirst, hInside⟩ := exists_first_of_hasPlaceholder h
      obtain ⟨next, more, hRest⟩ := ih rest.length (by simp at hLength; omega) rest rfl
      exact ⟨first, next :: more, .placeholder hFirst hInside hRest⟩
    · exact ⟨s, [], .plain h⟩

theorem Cut.unique {s first first' : List Char} {more more' : List (List Char)} (h : Cut s first more)
    (h' : Cut s first' more') : first' = first ∧ more' = more := by
  induction h generalizing first' more' with
  | plain hNone =>
    cases h' with
    | plain _ => exact ⟨rfl, rfl⟩
    | placeholder _ _ _ => exact absurd ⟨_, _, _, rfl⟩ hNone
  | @placeholder first inside rest next more hFirst hInside _ ih =>
    generalize hs : first ++ '<' :: (inside ++ '>' :: rest) = s at h'
    cases h' with
    | plain hNone => exact absurd ⟨_, _, _, hs.symm⟩ hNone
    | placeholder hFirst' hInside' hRest' =>
      obtain ⟨rfl, hTail⟩ := eq_and_eq_of_first_eq hFirst hFirst' hs
      obtain ⟨rfl, rfl⟩ := eq_and_eq_of_first_eq hInside hInside' hTail
      obtain ⟨rfl, rfl⟩ := ih hRest'
      exact ⟨rfl, rfl⟩

theorem exists_fillings_of_cut {s first : List Char} {more : List (List Char)} (h : Cut s first more) :
    ∃ fillings, fillings.length = more.length ∧ s = woven first more fillings := by
  induction h with
  | plain _ => exact ⟨[], rfl, by simp [woven]⟩
  | @placeholder first inside rest next more _ _ _ ih =>
    obtain ⟨fillings, hLength, hRest⟩ := ih
    refine ⟨('<' :: (inside ++ ['>'])) :: fillings, by simp [hLength], ?_⟩
    rw [hRest]
    simp [woven]

/-! ## Escaping and widening -/

theorem escapeSpecials_append (s t : List Char) : escapeSpecials (s ++ t) = escapeSpecials s ++ escapeSpecials t :=
  List.flatMap_append

theorem escapeSpecials_cons_of_mem {c : Char} (h : c ∈ patternSpecials) (s : List Char) :
    escapeSpecials (c :: s) = '\\' :: c :: escapeSpecials s := by
  simp [escapeSpecials, h]

theorem escapeSpecials_cons_of_notMem {c : Char} (h : c ∉ patternSpecials) (s : List Char) :
    escapeSpecials (c :: s) = c :: escapeSpecials s := by
  simp [escapeSpecials, h]

theorem mem_escapeSpecials_iff {c : Char} (h : c ∉ patternSpecials) (s : List Char) : c ∈ escapeSpecials s ↔ c ∈ s := by
  have hSlash : c ≠ '\\' := by
    rintro rfl
    exact h (by decide)
  induction s with
  | nil => rfl
  | cons d s ih =>
    by_cases hd : d ∈ patternSpecials
    · rw [escapeSpecials_cons_of_mem hd]
      simp only [List.mem_cons, hSlash, false_or, ih]
    · simp only [escapeSpecials_cons_of_notMem hd, List.mem_cons, ih]

theorem hasPlaceholder_of_escapeSpecials_append {s p : List Char} (hOpen : '<' ∉ p) (hClose : '>' ∉ p)
    (h : HasPlaceholder (escapeSpecials s ++ p)) : HasPlaceholder s := by
  induction s with
  | nil =>
    obtain ⟨before, inside, after, rfl⟩ := h
    exact absurd (by simp) hOpen
  | cons c s ih =>
    rw [hasPlaceholder_cons_iff]
    by_cases hc : c ∈ patternSpecials
    · rw [escapeSpecials_cons_of_mem hc, List.cons_append, List.cons_append, hasPlaceholder_cons_iff,
        hasPlaceholder_cons_iff] at h
      rcases h with ⟨hSlash, -⟩ | ⟨rfl, -⟩ | h
      · cases hSlash
      · exact absurd hc (by decide)
      · exact .inr (ih h)
    · rw [escapeSpecials_cons_of_notMem hc, List.cons_append, hasPlaceholder_cons_iff] at h
      rcases h with ⟨rfl, hMem⟩ | h
      · rw [List.mem_append, mem_escapeSpecials_iff (by decide)] at hMem
        exact .inl ⟨rfl, hMem.resolve_right hClose⟩
      · exact .inr (ih h)

theorem widenPlaceholders_append {s : List Char} (h : '<' ∉ s) (p : List Char) :
    widenPlaceholders (s ++ p) = s ++ widenPlaceholders p := by
  induction s with
  | nil => rfl
  | cons c s ih =>
    rw [List.mem_cons, not_or] at h
    rw [List.cons_append, widenPlaceholders, if_neg (Ne.symm h.1), ih h.2, List.cons_append]

theorem widenPlaceholders_placeholder {inside : List Char} (h : '>' ∉ inside) (rest : List Char) :
    widenPlaceholders ('<' :: (inside ++ '>' :: rest)) = '.' :: '*' :: widenPlaceholders rest := by
  rw [widenPlaceholders, if_pos rfl]
  split
  · next rest' hRest =>
    rw [afterFirst?_append h] at hRest
    cases hRest
    rfl
  · next hNone =>
    rw [afterFirst?_append h] at hNone
    cases hNone

theorem widenPlaceholders_eq_self {s : List Char} (h : ¬HasPlaceholder s) : widenPlaceholders s = s := by
  induction s with
  | nil => rw [widenPlaceholders]
  | cons c s ih =>
    rw [hasPlaceholder_cons_iff, not_or, not_and] at h
    rw [widenPlaceholders]
    split
    · next hc =>
      split
      · next rest hRest =>
        rw [afterFirst?_eq_none (h.1 hc)] at hRest
        cases hRest
      · rw [ih h.2]
    · rw [ih h.2]

theorem widenPlaceholders_of_cut {s first : List Char} {more : List (List Char)} (h : Cut s first more)
    {p : List Char} (hOpen : '<' ∉ p) (hClose : '>' ∉ p) :
    widenPlaceholders (escapeSpecials s ++ p) =
      escapeSpecials first ++ (more.flatMap (fun literal => '.' :: '*' :: escapeSpecials literal) ++ p) := by
  induction h with
  | plain hNone =>
    exact widenPlaceholders_eq_self fun hHas => hNone (hasPlaceholder_of_escapeSpecials_append hOpen hClose hHas)
  | @placeholder first inside rest next more hFirst hInside _ ih =>
    have hFirst' : '<' ∉ escapeSpecials first := by rwa [mem_escapeSpecials_iff (by decide)]
    have hInside' : '>' ∉ escapeSpecials inside := by rwa [mem_escapeSpecials_iff (by decide)]
    rw [escapeSpecials_append, escapeSpecials_cons_of_notMem (by decide), escapeSpecials_append,
      escapeSpecials_cons_of_notMem (by decide), List.append_assoc, widenPlaceholders_append hFirst', List.cons_append,
      List.append_assoc, List.cons_append, widenPlaceholders_placeholder hInside', ih]
    simp

/-! ## Reading the pattern -/

theorem readPattern_literal (literal p : List Char) :
    readPattern (escapeSpecials literal ++ p) = literal.map charPiece ++ readPattern p := by
  induction literal with
  | nil => rfl
  | cons c literal ih =>
    rw [List.map_cons, List.cons_append, charPiece, ← ih]
    by_cases hc : c ∈ patternSpecials
    · have hContains : patternSpecials.contains c = true := by simpa using hc
      rw [escapeSpecials_cons_of_mem hc, List.cons_append, List.cons_append, readPattern, if_pos hContains, hContains]
    · have hContains : patternSpecials.contains c = false := by simpa using hc
      obtain ⟨hSlash, hDot, hStart, hStop⟩ : c ≠ '\\' ∧ c ≠ '.' ∧ c ≠ '^' ∧ c ≠ '$' := by
        refine ⟨?_, ?_, ?_, ?_⟩ <;> (rintro rfl; exact hc (by decide))
      rw [escapeSpecials_cons_of_notMem hc, List.cons_append, readPattern, hContains]
      -- The earlier rows of the reader are for characters with a meaning.
      all_goals grind

def widenedPieces (more : List (List Char)) : List Piece :=
  more.flatMap fun literal => .anyText :: literal.map charPiece

theorem readPattern_widened (more : List (List Char)) (p : List Char) :
    readPattern (more.flatMap (fun literal => '.' :: '*' :: escapeSpecials literal) ++ p) =
      widenedPieces more ++ readPattern p := by
  induction more with
  | nil => rfl
  | cons literal more ih =>
    rw [List.flatMap_cons, List.append_assoc, List.cons_append, List.cons_append, readPattern, readPattern_literal, ih]
    simp [widenedPieces]

theorem readPattern_namePattern {name : String} {first : List Char} {more : List (List Char)}
    (h : Cut name.toList first more) : readPattern (namePattern name).toList =
      .start :: (first.map charPiece ++ (widenedPieces more ++ [.stop])) := by
  have hText : (namePattern name).toList = '^' :: (escapeSpecials first ++
      (more.flatMap (fun literal => '.' :: '*' :: escapeSpecials literal) ++ ['$'])) := by
    rw [namePattern, String.toList_ofList, List.cons_append, widenPlaceholders, if_neg (by decide),
      widenPlaceholders_of_cut h (by decide) (by decide)]
  rw [hText, readPattern, readPattern_literal, readPattern_widened]
  rfl

theorem notMem_patternSpecials_of_not_escaped {name : String} {c : Char}
    (h : .char c false ∈ readPattern (namePattern name).toList) : c ∉ patternSpecials := by
  obtain ⟨first, more, hCut⟩ := exists_cut name.toList
  have hLiteral : ∀ literal, .char c false ∈ List.map charPiece literal → c ∉ patternSpecials := by
    intro literal hMem
    obtain ⟨d, -, hd⟩ := List.mem_map.mp hMem
    obtain ⟨rfl, hContains⟩ := Piece.char.inj hd
    simpa using hContains
  rw [readPattern_namePattern hCut] at h
  simp only [widenedPieces, List.mem_cons, List.mem_append, List.mem_flatMap, reduceCtorEq, false_or,
    List.not_mem_nil, or_false] at h
  rcases h with hMem | ⟨literal, -, hMem⟩
  · exact hLiteral first hMem
  · exact hLiteral literal hMem

/-! ## Accepted texts -/

theorem matchesAt_widened_iff (more : List (List Char)) {before rest : List Char} :
    MatchesAt (widenedPieces more ++ [.stop]) before rest ↔
      ∃ fillings, fillings.length = more.length ∧ (∀ filling ∈ fillings, '\n' ∉ filling) ∧
        rest = (List.zipWith (· ++ ·) fillings more).flatten := by
  induction more generalizing before rest with
  | nil =>
    rw [show widenedPieces [] ++ [.stop] = [.stop] from rfl, matchesAt_stop_iff]
    simp
  | cons literal more ih =>
    have hPieces : widenedPieces (literal :: more) ++ [.stop] =
        .anyText :: (literal.map charPiece ++ (widenedPieces more ++ [.stop])) := by
      simp [widenedPieces]
    rw [hPieces, matchesAt_anyText_iff]
    constructor
    · rintro ⟨passed, _, rfl, hPassed, hLiteral⟩
      obtain ⟨tail, rfl, hTail⟩ := (matchesAt_literal_iff literal).mp hLiteral
      obtain ⟨fillings, hLength, hFeed, rfl⟩ := ih.mp hTail
      exact ⟨passed :: fillings, by simp [hLength], List.forall_mem_cons.mpr ⟨hPassed, hFeed⟩, by simp⟩
    · rintro ⟨fillings, hLength, hFeed, rfl⟩
      cases fillings with
      | nil => cases hLength
      | cons passed fillings =>
        obtain ⟨hPassed, hFeed⟩ := List.forall_mem_cons.mp hFeed
        refine ⟨passed, literal ++ (List.zipWith (· ++ ·) fillings more).flatten, by simp, hPassed, ?_⟩
        rw [matchesAt_literal_iff]
        exact ⟨_, rfl, ih.mpr ⟨fillings, by simpa using hLength, hFeed, rfl⟩⟩

theorem accepts_iff_exists_fillings {name text : String} {first : List Char} {more : List (List Char)}
    (hCut : Cut name.toList first more) : Accepts (namePattern name) text ↔
      ∃ fillings, fillings.length = more.length ∧ (∀ filling ∈ fillings, '\n' ∉ filling) ∧
        text.toList = woven first more fillings := by
  constructor
  · rintro ⟨before, rest, hSplit, hMatches⟩
    rw [readPattern_namePattern hCut, matchesAt_start_iff] at hMatches
    obtain ⟨rfl, hMatches⟩ := hMatches
    obtain ⟨tail, rfl, hTail⟩ := (matchesAt_literal_iff first).mp hMatches
    obtain ⟨fillings, hLength, hFeed, rfl⟩ := (matchesAt_widened_iff more).mp hTail
    exact ⟨fillings, hLength, hFeed, hSplit⟩
  · rintro ⟨fillings, hLength, hFeed, hWoven⟩
    refine ⟨[], text.toList, rfl, ?_⟩
    rw [readPattern_namePattern hCut, matchesAt_start_iff, matchesAt_literal_iff]
    exact ⟨rfl, _, hWoven, (matchesAt_widened_iff more).mpr ⟨fillings, hLength, hFeed, rfl⟩⟩

theorem subset_woven (first : List Char) {more fillings : List (List Char)} (hLength : fillings.length = more.length) :
    ∀ filling ∈ fillings, filling ⊆ woven first more fillings := by
  intro filling hFilling
  obtain ⟨i, hi, rfl⟩ := List.mem_iff_getElem.mp hFilling
  have hMem : fillings[i] ++ more[i] ∈ List.zipWith (· ++ ·) fillings more := by
    rw [List.mem_iff_getElem]
    exact ⟨i, by simp [hLength] at hi ⊢; omega, by simp⟩
  calc
    fillings[i] ⊆ fillings[i] ++ more[i] := List.subset_append_left _ _
    _ ⊆ (List.zipWith (· ++ ·) fillings more).flatten := fun c hc => List.mem_flatten.mpr ⟨_, hMem, hc⟩
    _ ⊆ woven first more fillings := List.subset_append_right _ _

theorem accepts_iff_of_cut {name text : String} {first : List Char} {more : List (List Char)}
    (hCut : Cut name.toList first more) (hText : '\n' ∉ text.toList) : Accepts (namePattern name) text ↔
      ∃ fillings, fillings.length = more.length ∧ text.toList = woven first more fillings := by
  rw [accepts_iff_exists_fillings hCut]
  constructor
  · rintro ⟨fillings, hLength, -, hWoven⟩
    exact ⟨fillings, hLength, hWoven⟩
  · rintro ⟨fillings, hLength, hWoven⟩
    refine ⟨fillings, hLength, ?_, hWoven⟩
    intro filling hFilling hFeed
    rw [hWoven] at hText
    exact hText (subset_woven first hLength filling hFilling hFeed)

/-- There is one way to cut a name, its pattern has no character with a meaning left outside an escape, and a text is
accepted exactly if it is woven from the literal parts. -/
theorem accepts_namePattern_iff (name : String) :
    ∃ first more, Cut name.toList first more ∧
      (∀ first' more', Cut name.toList first' more' → first' = first ∧ more' = more) ∧
      (∀ c, .char c false ∈ readPattern (namePattern name).toList → c ∉ patternSpecials) ∧
      ∀ text : String, '\n' ∉ text.toList → (Accepts (namePattern name) text ↔
        ∃ fillings, fillings.length = more.length ∧ text.toList = woven first more fillings) := by
  obtain ⟨first, more, hCut⟩ := exists_cut name.toList
  refine ⟨first, more, hCut, ?_, ?_, ?_⟩
  · intro first' more' hCut'
    exact hCut.unique hCut'
  · intro c hc
    exact notMem_patternSpecials_of_not_escaped hc
  · intro text hText
    exact accepts_iff_of_cut hCut hText

end ScenarioRunner.Run
