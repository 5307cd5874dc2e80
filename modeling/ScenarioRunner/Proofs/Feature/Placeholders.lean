import Mathlib.Data.List.Nodup
import Mathlib.Tactic.Common
import ScenarioRunner.Feature.Placeholder
import ScenarioRunner.Proofs.Text.Numeral

/-!
# One pass over the placeholders of a template

The placeholders of headers without brackets never overlap, so that one pass from left to right can fill all columns at
once. Main statements: the pass treats the parts of a text between its opening brackets alone, fills the placeholder of
a column wherever it stands, and does not depend on the order of the columns.
-/

namespace ScenarioRunner.Feature

open ScenarioRunner.Text

set_option autoImplicit false

def placeholder (header : String) : List Char :=
  '<' :: (header.toList ++ ['>'])

/-- The value of the column whose placeholder stands at the front of a text, and what follows. -/
def columnAt? (columns : List (String × String)) (s : List Char) : Option (List Char × List Char) :=
  columns.findSome? fun column => (after? (placeholder column.1) s).map fun rest => (column.2.toList, rest)

theorem length_of_columnAt? {columns : List (String × String)} {s value rest : List Char}
    (h : columnAt? columns s = some (value, rest)) : rest.length < s.length := by
  obtain ⟨column, -, hColumn⟩ := List.exists_of_findSome?_eq_some h
  obtain ⟨tail, hAfter, hTail⟩ := Option.map_eq_some_iff.mp hColumn
  cases hTail
  have := length_of_after? hAfter
  simp only [placeholder, List.length_cons] at this
  omega

/-- One pass from left to right. Values are copied and never read. -/
def fillAtOnce (columns : List (String × String)) : List Char → List Char
  | [] => []
  | c :: s =>
    match _h : columnAt? columns (c :: s) with
    | some (value, rest) => value ++ fillAtOnce columns rest
    | none => c :: fillAtOnce columns s
termination_by s => s.length
decreasing_by
  · exact length_of_columnAt? _h
  · simp

def placeholderCount (header : String) : List Char → Nat
  | [] => 0
  | c :: s => (if placeholder header <+: c :: s then 1 else 0) + placeholderCount header s

/-- A header that can be told from what stands around it. -/
def IsPlainHeader (header : String) : Prop :=
  '<' ∉ header.toList ∧ '>' ∉ header.toList

instance (header : String) : Decidable (IsPlainHeader header) :=
  inferInstanceAs (Decidable (_ ∧ _))

structure Separate (columns : List (String × String)) : Prop where
  plain : ∀ column ∈ columns, IsPlainHeader column.1
  nodup : (columns.map Prod.fst).Nodup

/-! ## Placeholders -/

theorem placeholder_inj {header other : String} (hHeader : IsPlainHeader header) (hOther : IsPlainHeader other)
    {rest tail : List Char} (h : placeholder header ++ rest = placeholder other ++ tail) :
    header = other ∧ rest = tail := by
  have hText : header.toList ++ '>' :: rest = other.toList ++ '>' :: tail := by
    simpa [placeholder] using h
  obtain ⟨hName, hRest⟩ := eq_and_eq_of_first_eq hHeader.2 hOther.2 hText
  exact ⟨String.toList_injective hName, hRest⟩

theorem columnAt?_eq_some_iff {columns : List (String × String)} (h : Separate columns) {s value rest : List Char} :
    columnAt? columns s = some (value, rest) ↔
      ∃ column ∈ columns, column.2.toList = value ∧ s = placeholder column.1 ++ rest := by
  constructor
  · intro hAt
    obtain ⟨column, hMem, hColumn⟩ := List.exists_of_findSome?_eq_some hAt
    obtain ⟨tail, hAfter, hTail⟩ := Option.map_eq_some_iff.mp hColumn
    cases hTail
    exact ⟨column, hMem, rfl, (after?_eq_some_iff _ _ _).mp hAfter⟩
  · rintro ⟨column, hMem, rfl, rfl⟩
    cases hAt : columnAt? columns (placeholder column.1 ++ rest) with
    | none =>
      have hNone := List.findSome?_eq_none_iff.mp hAt column hMem
      rw [after?_append] at hNone
      cases hNone
    | some found =>
      obtain ⟨other, hOther, hColumn⟩ := List.exists_of_findSome?_eq_some hAt
      obtain ⟨tail, hAfter, rfl⟩ := Option.map_eq_some_iff.mp hColumn
      obtain ⟨hName, rfl⟩ := placeholder_inj (h.plain column hMem) (h.plain other hOther)
        ((after?_eq_some_iff _ _ _).mp hAfter)
      obtain rfl := List.inj_on_of_nodup_map h.nodup hMem hOther hName
      rfl

theorem columnAt?_perm {columns others : List (String × String)} (h : Separate columns) (hPerm : others.Perm columns)
    (s : List Char) : columnAt? others s = columnAt? columns s := by
  have hOthers : Separate others :=
    ⟨fun column hMem => h.plain column (hPerm.subset hMem), (hPerm.map Prod.fst).nodup_iff.mpr h.nodup⟩
  ext found
  obtain ⟨value, rest⟩ := found
  simp only [columnAt?_eq_some_iff h, columnAt?_eq_some_iff hOthers, hPerm.mem_iff]

theorem columnAt?_eq_none_of_ne (columns : List (String × String)) {c : Char} (h : c ≠ '<') (s : List Char) :
    columnAt? columns (c :: s) = none := by
  rw [columnAt?, List.findSome?_eq_none_iff]
  intro column _
  rw [Option.map_eq_none_iff, placeholder, after?, if_neg (Ne.symm h)]

theorem prefix_append_open_iff {header : String} (hHeader : IsPlainHeader header) {s : List Char} (hs : s ≠ [])
    (t : List Char) : placeholder header <+: s ++ '<' :: t ↔ placeholder header <+: s := by
  constructor
  · rintro ⟨rest, hRest⟩
    rcases List.append_eq_append_iff.mp hRest with ⟨more, hMore, -⟩ | ⟨more, hMore, hTail⟩
    · exact ⟨more, hMore.symm⟩
    · cases more with
      | nil =>
        rw [List.append_nil] at hMore
        exact ⟨[], by rw [List.append_nil, hMore]⟩
      | cons d more =>
        -- A bracket can open a placeholder only at its front.
        obtain ⟨c, s, rfl⟩ := List.exists_cons_of_ne_nil hs
        obtain ⟨rfl, -⟩ := List.cons.inj hTail
        obtain ⟨-, hInside⟩ := List.cons.inj hMore
        have hMem : '<' ∈ header.toList ++ ['>'] := by
          rw [hInside]
          simp
        simp [hHeader.1] at hMem
  · exact fun h => h.trans (List.prefix_append s _)

/-! ## Counting placeholders -/

theorem placeholderCount_append {t : List Char} (h : '<' ∉ t) (header : String) (s : List Char) :
    placeholderCount header (t ++ s) = placeholderCount header s := by
  induction t with
  | nil => rfl
  | cons c t ih =>
    rw [List.mem_cons, not_or] at h
    have hNone : ¬placeholder header <+: c :: (t ++ s) := by
      rintro ⟨rest, hRest⟩
      exact h.1 (List.cons.inj hRest).1
    rw [List.cons_append, placeholderCount, if_neg hNone, Nat.zero_add, ih h.2]

theorem placeholderCount_append_open {header : String} (hHeader : IsPlainHeader header) (s t : List Char) :
    placeholderCount header (s ++ '<' :: t) = placeholderCount header s + placeholderCount header ('<' :: t) := by
  induction s with
  | nil => simp [placeholderCount]
  | cons c s ih =>
    have hPrefix := prefix_append_open_iff hHeader (List.cons_ne_nil c s) t
    rw [List.cons_append] at hPrefix ⊢
    rw [placeholderCount, placeholderCount, ih, ← Nat.add_assoc]
    simp only [hPrefix]

theorem placeholderCount_placeholder {header other : String} (hHeader : IsPlainHeader header)
    (hOther : IsPlainHeader other) (s : List Char) :
    placeholderCount header (placeholder other ++ s) =
      (if header = other then 1 else 0) + placeholderCount header s := by
  have hInside : '<' ∉ other.toList ++ ['>'] := by
    simp [hOther.1]
  have hPrefix : placeholder header <+: placeholder other ++ s ↔ header = other := by
    constructor
    · rintro ⟨rest, hRest⟩
      exact (placeholder_inj hHeader hOther hRest).1
    · rintro rfl
      exact List.prefix_append _ s
  rw [placeholder, List.cons_append, placeholderCount, placeholderCount_append hInside, ← List.cons_append,
    ← placeholder]
  simp only [hPrefix]

/-! ## Passes over parts of a text -/

section

variable {columns : List (String × String)} {header value : String}

theorem fillAtOnce_of_some {s value rest : List Char} (h : columnAt? columns s = some (value, rest)) :
    fillAtOnce columns s = value ++ fillAtOnce columns rest := by
  cases s with
  | nil => exact absurd (length_of_columnAt? h) (Nat.not_lt_zero _)
  | cons c s =>
    rw [fillAtOnce]
    split
    · next hAt =>
      rw [h] at hAt
      cases hAt
      rfl
    · next hAt =>
      rw [h] at hAt
      cases hAt

theorem fillAtOnce_of_none {c : Char} {s : List Char} (h : columnAt? columns (c :: s) = none) :
    fillAtOnce columns (c :: s) = c :: fillAtOnce columns s := by
  rw [fillAtOnce]
  split
  · next hAt =>
    rw [h] at hAt
    cases hAt
  · rfl

theorem fillAtOnce_congr {others : List (String × String)} (h : ∀ s, columnAt? columns s = columnAt? others s)
    (s : List Char) : fillAtOnce columns s = fillAtOnce others s := by
  fun_induction fillAtOnce columns s with
  | case1 => rw [fillAtOnce]
  | case2 c s value rest hAt ih => rw [ih, fillAtOnce_of_some ((h _).symm.trans hAt)]
  | case3 c s hAt ih => rw [ih, fillAtOnce_of_none ((h _).symm.trans hAt)]

theorem fillAtOnce_perm {others : List (String × String)} (h : Separate columns) (hPerm : others.Perm columns)
    (s : List Char) : fillAtOnce others s = fillAtOnce columns s :=
  fillAtOnce_congr (columnAt?_perm h hPerm) s

theorem fillAtOnce_nil (s : List Char) : fillAtOnce [] s = s := by
  induction s with
  | nil => rw [fillAtOnce]
  | cons c s ih => rw [fillAtOnce_of_none rfl, ih]

/-- One column alone is filled as in turn. -/
theorem fillAtOnce_singleton (s : List Char) :
    fillAtOnce [(header, value)] s = fill header.toList value.toList s := by
  have hAt : ∀ s, columnAt? [(header, value)] s = (after? (placeholder header) s).map (value.toList, ·) := by
    intro s
    rw [columnAt?, List.findSome?_singleton]
  fun_induction fill header.toList value.toList s with
  | case1 => rw [fillAtOnce]
  | case2 s rest hAfter ih =>
    have hFound : after? (placeholder header) ('<' :: s) = some rest := by
      rw [placeholder, after?, if_pos rfl, hAfter]
    rw [fillAtOnce_of_some (by rw [hAt, hFound]; rfl), ih]
  | case3 s hAfter ih =>
    have hNone : after? (placeholder header) ('<' :: s) = none := by
      rw [placeholder, after?, if_pos rfl, hAfter]
    rw [fillAtOnce_of_none (by rw [hAt, hNone]; rfl), ih]
  | case4 c s hc ih => rw [fillAtOnce_of_none (columnAt?_eq_none_of_ne _ hc s), ih]

theorem fillAtOnce_append {t : List Char} (h : '<' ∉ t) (s : List Char) :
    fillAtOnce columns (t ++ s) = t ++ fillAtOnce columns s := by
  induction t with
  | nil => rfl
  | cons c t ih =>
    rw [List.mem_cons, not_or] at h
    rw [List.cons_append, fillAtOnce_of_none (columnAt?_eq_none_of_ne _ (Ne.symm h.1) _), ih h.2, List.cons_append]

theorem fillAtOnce_append_open (h : Separate columns) (s t : List Char) :
    fillAtOnce columns (s ++ '<' :: t) = fillAtOnce columns s ++ fillAtOnce columns ('<' :: t) := by
  fun_induction fillAtOnce columns s with
  | case1 => rfl
  | case2 c s value rest hAt ih =>
    have hLonger : columnAt? columns (c :: s ++ '<' :: t) = some (value, rest ++ '<' :: t) := by
      obtain ⟨column, hMem, hValue, hText⟩ := (columnAt?_eq_some_iff h).mp hAt
      exact (columnAt?_eq_some_iff h).mpr ⟨column, hMem, hValue, by rw [hText, List.append_assoc]⟩
    rw [fillAtOnce_of_some hLonger, ih, List.append_assoc]
  | case3 c s hAt ih =>
    have hLonger : columnAt? columns (c :: (s ++ '<' :: t)) = none := by
      rw [Option.eq_none_iff_forall_ne_some]
      rintro ⟨value, rest⟩ hSome
      obtain ⟨column, hMem, -, hText⟩ := (columnAt?_eq_some_iff h).mp hSome
      obtain ⟨rest, hRest⟩ := (prefix_append_open_iff (h.plain column hMem) (List.cons_ne_nil c s) t).mp
        ⟨rest, hText.symm⟩
      have hFound := (columnAt?_eq_some_iff h).mpr ⟨column, hMem, rfl, hRest.symm⟩
      rw [hAt] at hFound
      cases hFound
    rw [List.cons_append, fillAtOnce_of_none hLonger, ih, List.cons_append]

/-- A placeholder of the template is filled whatever stands before it. -/
theorem fillAtOnce_cut_of_mem (h : Separate columns) (hMem : (header, value) ∈ columns) (first rest : List Char) :
    fillAtOnce columns (first ++ (placeholder header ++ rest)) =
      fillAtOnce columns first ++ (value.toList ++ fillAtOnce columns rest) := by
  have hAt : columnAt? columns (placeholder header ++ rest) = some (value.toList, rest) :=
    (columnAt?_eq_some_iff h).mpr ⟨_, hMem, rfl, rfl⟩
  rw [placeholder, List.cons_append, fillAtOnce_append_open h, ← List.cons_append, ← placeholder,
    fillAtOnce_of_some hAt]

/-- A placeholder of no column is copied. -/
theorem fillAtOnce_cut_of_ne (h : Separate columns) (hHeader : IsPlainHeader header)
    (hOther : ∀ column ∈ columns, column.1 ≠ header) (first rest : List Char) :
    fillAtOnce columns (first ++ (placeholder header ++ rest)) =
      fillAtOnce columns first ++ (placeholder header ++ fillAtOnce columns rest) := by
  have hInside : '<' ∉ header.toList ++ ['>'] := by
    simp [hHeader.1]
  have hAt : columnAt? columns (placeholder header ++ rest) = none := by
    rw [Option.eq_none_iff_forall_ne_some]
    rintro ⟨value, tail⟩ hSome
    obtain ⟨column, hMem, -, hText⟩ := (columnAt?_eq_some_iff h).mp hSome
    exact hOther column hMem (placeholder_inj hHeader (h.plain column hMem) hText).1.symm
  rw [placeholder, List.cons_append] at hAt ⊢
  rw [fillAtOnce_append_open h, fillAtOnce_of_none hAt, fillAtOnce_append hInside, List.cons_append]

end

end ScenarioRunner.Feature
