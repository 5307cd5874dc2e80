import Mathlib.Data.List.DropRight
import Mathlib.Tactic.Common
import ScenarioRunner.Text.Blank
import ScenarioRunner.Text.TerminalCodes

/-!
# Plain text

Text without escape and zero-width characters has no terminal codes, and text that neither starts nor ends with a blank
has nothing to trim. Cleaning leaves such text as it is, and trimmed text is such text.
-/

namespace ScenarioRunner.Text

set_option autoImplicit false

theorem removeCodes_of_notMem (shape : CodeShape) {s : List Char} (h : '\x1b' ∉ s) : removeCodes shape s = s := by
  induction s with
  | nil => rw [removeCodes]
  | cons c s ih =>
    rw [List.mem_cons, not_or] at h
    rw [removeCodes, if_neg (Ne.symm h.1), ih h.2]

theorem stripCodes_of_plain {s : List Char} (hEscape : '\x1b' ∉ s) (hWidth : ∀ c ∈ s, isZeroWidth c = false) :
    stripCodes s = s := by
  rw [stripCodes, removeCodes_of_notMem colourCode hEscape, List.filter_eq_self]
  intro c hc
  rw [hWidth c hc]
  rfl

theorem dropWhile_eq_self {p : Char → Bool} {s : List Char} (h : ∀ c ∈ s.head?, p c = false) : s.dropWhile p = s := by
  cases s with
  | nil => rfl
  | cons c s => rw [List.dropWhile_cons, h c rfl, if_neg (by simp)]

theorem dropTrailing_eq_self {p : Char → Bool} {s : List Char} (h : ∀ c ∈ s.getLast?, p c = false) :
    dropTrailing p s = s := by
  rw [dropTrailing, dropWhile_eq_self (by rwa [List.head?_reverse]), List.reverse_reverse]

theorem trim_eq_self {s : List Char} (hHead : ∀ c ∈ s.head?, isBlank c = false)
    (hLast : ∀ c ∈ s.getLast?, isBlank c = false) : trim s = s := by
  rw [trim, trimLeft, dropWhile_eq_self hHead, trimRight, dropTrailing_eq_self hLast]

theorem exists_dropTrailing_cons {p : Char → Bool} {c : Char} (h : p c = false) (s : List Char) :
    ∃ rest, dropTrailing p (c :: s) = c :: rest ∧ rest <+: s := by
  have hPrefix : dropTrailing p (c :: s) <+: c :: s := List.rdropWhile_prefix p (c :: s)
  obtain hNil | hCons := List.prefix_cons_iff.mp hPrefix
  · have hAll := List.rdropWhile_eq_nil_iff.mp hNil c List.mem_cons_self
    rw [h] at hAll
    cases hAll
  · exact hCons

theorem dropTrailing_subset (p : Char → Bool) (s : List Char) : dropTrailing p s ⊆ s := by
  intro c hc
  rw [dropTrailing, List.mem_reverse] at hc
  exact List.mem_reverse.mp ((List.dropWhile_sublist p).subset hc)

theorem trim_subset (s : List Char) : trim s ⊆ s :=
  List.Subset.trans (dropTrailing_subset isBlank (trimLeft s)) (List.dropWhile_sublist isBlank).subset

theorem isBlank_head_trim (s : List Char) : ∀ c ∈ (trim s).head?, isBlank c = false := by
  intro c hc
  obtain ⟨rest, hRest⟩ : trim s <+: trimLeft s := List.rdropWhile_prefix isBlank (trimLeft s)
  obtain ⟨tail, hTail⟩ := List.head?_eq_some_iff.mp hc
  have hHead : (s.dropWhile isBlank).head? = some c := by
    rw [← trimLeft, ← hRest, hTail]
    rfl
  have hFirst := List.head?_dropWhile_not isBlank s
  rw [hHead] at hFirst
  exact hFirst

theorem isBlank_last_trim (s : List Char) : ∀ c ∈ (trim s).getLast?, isBlank c = false := by
  intro c hc
  have hLast := List.head?_dropWhile_not isBlank (trimLeft s).reverse
  rw [trim, trimRight, dropTrailing, List.getLast?_reverse] at hc
  rw [Option.mem_def.mp hc] at hLast
  exact hLast

theorem trim_trim (s : List Char) : trim (trim s) = trim s :=
  trim_eq_self (isBlank_head_trim s) (isBlank_last_trim s)

/-! ## Blanks at the ends -/

theorem exists_blanks_of_trimLeft (s : List Char) :
    ∃ blanks, s = blanks ++ trimLeft s ∧ ∀ c ∈ blanks, isBlank c = true :=
  ⟨s.takeWhile isBlank, List.takeWhile_append_dropWhile.symm, fun _ hc => List.mem_takeWhile_imp hc⟩

theorem exists_blanks_of_trim (s : List Char) :
    ∃ blanks, trimLeft s = trim s ++ blanks ∧ ∀ c ∈ blanks, isBlank c = true := by
  refine ⟨(trimLeft s).rtakeWhile isBlank, ?_, fun c hc => List.mem_rtakeWhile_imp hc⟩
  exact List.rdropWhile_append_rtakeWhile.symm

theorem trimLeft_append {blanks : List Char} (h : ∀ c ∈ blanks, isBlank c = true) (s : List Char) :
    trimLeft (blanks ++ s) = trimLeft s :=
  List.dropWhile_append_of_pos h

theorem trimRight_append {blanks : List Char} (h : ∀ c ∈ blanks, isBlank c = true) (s : List Char) :
    trimRight (s ++ blanks) = trimRight s := by
  rw [trimRight, dropTrailing, List.reverse_append, List.dropWhile_append_of_pos, trimRight, dropTrailing]
  exact fun c hc => h c (List.mem_reverse.mp hc)

end ScenarioRunner.Text
