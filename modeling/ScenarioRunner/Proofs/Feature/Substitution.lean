import Mathlib.Data.List.Induction
import Mathlib.Data.List.Permutation
import ScenarioRunner.Proofs.Feature.Placeholders

/-!
# Filling columns in turn and at once

The columns of a row are filled in turn, each over what the ones before it have left. One pass over the template would
fill them at once, so that no value is ever read. Main statement: both agree at every column exactly if no column finds
its placeholder where values and brackets of the template have made a new one; they always agree if no value has an
opening bracket and no placeholder stands inside an open one.
-/

namespace ScenarioRunner.Feature

open ScenarioRunner.Text

set_option autoImplicit false

def fillInTurn (columns : List (String × String)) (template : List Char) : List Char :=
  columns.foldl (fun name column => fill column.1.toList column.2.toList name) template

/-! ## One more column -/

/-- A text cut at the placeholders of a header. -/
inductive CutAt (header : String) : List Char → Prop
  | last {s : List Char} (h : placeholderCount header s = 0) : CutAt header s
  | more {first rest : List Char} (hFirst : placeholderCount header first = 0) (h : CutAt header rest) :
      CutAt header (first ++ (placeholder header ++ rest))

theorem cutAt (header : String) (s : List Char) : CutAt header s := by
  fun_induction fillAtOnce [(header, "")] s with
  | case1 => exact .last rfl
  | case2 c s value rest hAt ih =>
    obtain ⟨column, hMem, hColumn⟩ := List.exists_of_findSome?_eq_some hAt
    obtain ⟨tail, hAfter, hTail⟩ := Option.map_eq_some_iff.mp hColumn
    obtain rfl := List.mem_singleton.mp hMem
    cases hTail
    rw [(after?_eq_some_iff _ _ _).mp hAfter]
    exact @CutAt.more header [] _ rfl ih
  | case3 c s hAt ih =>
    have hNone : ∀ t, t <+: s → ¬placeholder header <+: c :: t := by
      intro t ht hPrefix
      obtain ⟨rest, hRest⟩ := hPrefix.trans (List.prefix_cons_inj c |>.mpr ht)
      rw [← hRest, columnAt?, List.findSome?_singleton, after?_append] at hAt
      cases hAt
    cases ih with
    | last h => exact .last (by rw [placeholderCount, if_neg (hNone s List.prefix_rfl), h])
    | @more first rest hFirst h =>
      have hLonger : placeholderCount header (c :: first) = 0 := by
        rw [placeholderCount, if_neg (hNone first (List.prefix_append _ _)), hFirst]
      exact @CutAt.more header (c :: first) rest hLonger h

section

variable {columns : List (String × String)} {header value : String}

theorem Separate.of_prefix {more : List (String × String)} (h : Separate more) (hPrefix : columns <+: more) :
    Separate columns :=
  ⟨fun column hMem => h.plain column (hPrefix.subset hMem), h.nodup.sublist (hPrefix.sublist.map Prod.fst)⟩

theorem Separate.ne_of_mem (h : Separate (columns ++ [(header, value)])) :
    ∀ column ∈ columns, column.1 ≠ header := by
  have hNodup := h.nodup
  rw [List.map_append, List.nodup_append] at hNodup
  intro column hMem
  exact hNodup.2.2 _ (List.mem_map_of_mem hMem) header List.mem_cons_self

theorem Separate.plain_last (h : Separate (columns ++ [(header, value)])) : IsPlainHeader header :=
  h.plain _ (List.mem_append_right columns List.mem_cons_self)

theorem Separate.singleton (h : IsPlainHeader header) : Separate [(header, value)] :=
  ⟨List.forall_mem_singleton.mpr h, List.nodup_singleton header⟩

theorem columnAt?_concat (s : List Char) : columnAt? (columns ++ [(header, value)]) s =
    (columnAt? columns s).or ((after? (placeholder header) s).map (value.toList, ·)) := by
  rw [columnAt?, List.findSome?_append, List.findSome?_singleton, ← columnAt?]

/-- Where its placeholder does not stand, a column changes nothing. -/
theorem fillAtOnce_concat (h : Separate (columns ++ [(header, value)])) {s : List Char}
    (hCount : placeholderCount header s = 0) :
    fillAtOnce (columns ++ [(header, value)]) s = fillAtOnce columns s := by
  have hColumns := h.of_prefix (List.prefix_append columns _)
  fun_induction fillAtOnce columns s with
  | case1 => rw [fillAtOnce]
  | case2 c s found rest hAt ih =>
    obtain ⟨column, hMem, -, hText⟩ := (columnAt?_eq_some_iff hColumns).mp hAt
    rw [hText, placeholderCount_placeholder h.plain_last (hColumns.plain column hMem)] at hCount
    rw [fillAtOnce_of_some (by rw [columnAt?_concat, hAt, Option.some_or]), ih (Nat.add_eq_zero_iff.mp hCount).2]
  | case3 c s hAt ih =>
    rw [placeholderCount, Nat.add_eq_zero_iff] at hCount
    have hNone : after? (placeholder header) (c :: s) = none := by
      rw [Option.eq_none_iff_forall_ne_some]
      intro rest hRest
      rw [(after?_eq_some_iff _ _ _).mp hRest, if_pos (List.prefix_append _ rest)] at hCount
      cases hCount.1
    rw [fillAtOnce_of_none (by rw [columnAt?_concat, hAt, hNone]; rfl), ih hCount.2]

theorem placeholderCount_cut (hHeader : IsPlainHeader header) (first rest : List Char) :
    placeholderCount header (first ++ (placeholder header ++ rest)) =
      placeholderCount header first + (1 + placeholderCount header rest) := by
  have hLast := placeholderCount_placeholder hHeader hHeader rest
  rw [if_pos rfl, placeholder, List.cons_append] at hLast
  rw [placeholder, List.cons_append, placeholderCount_append_open hHeader, hLast]

/-- What a placeholder more or less means for the length of the text. -/
theorem length_fillAtOnce_concat (h : Separate (columns ++ [(header, value)])) (s : List Char) :
    (fillAtOnce (columns ++ [(header, value)]) s).length + placeholderCount header s * (placeholder header).length =
      (fillAtOnce columns s).length + placeholderCount header s * value.toList.length := by
  have hMem : (header, value) ∈ columns ++ [(header, value)] := List.mem_append_right columns List.mem_cons_self
  induction cutAt header s with
  | last hCount => rw [fillAtOnce_concat h hCount, hCount, Nat.zero_mul, Nat.zero_mul]
  | @more first rest hFirst _ ih =>
    rw [fillAtOnce_cut_of_mem h hMem, fillAtOnce_concat h hFirst,
      fillAtOnce_cut_of_ne (h.of_prefix (List.prefix_append columns _)) h.plain_last h.ne_of_mem,
      placeholderCount_cut h.plain_last, hFirst]
    simp only [List.length_append]
    grind

/-- A placeholder of the template stays until its column is filled. -/
theorem placeholderCount_le (h : Separate (columns ++ [(header, value)])) (s : List Char) :
    placeholderCount header s ≤ placeholderCount header (fillAtOnce columns s) := by
  induction cutAt header s with
  | last hCount => rw [hCount]; exact Nat.zero_le _
  | @more first rest hFirst _ ih =>
    rw [fillAtOnce_cut_of_ne (h.of_prefix (List.prefix_append columns _)) h.plain_last h.ne_of_mem,
      placeholderCount_cut h.plain_last, placeholderCount_cut h.plain_last, hFirst]
    omega

/-- A column whose value is its own placeholder changes nothing. -/
theorem fillAtOnce_concat_of_eq (h : Separate (columns ++ [(header, value)]))
    (hValue : value.toList = placeholder header) (s : List Char) :
    fillAtOnce (columns ++ [(header, value)]) s = fillAtOnce columns s := by
  have hMem : (header, value) ∈ columns ++ [(header, value)] := List.mem_append_right columns List.mem_cons_self
  induction cutAt header s with
  | last hCount => exact fillAtOnce_concat h hCount
  | @more first rest hFirst _ ih =>
    rw [fillAtOnce_cut_of_mem h hMem, fillAtOnce_concat h hFirst,
      fillAtOnce_cut_of_ne (h.of_prefix (List.prefix_append columns _)) h.plain_last h.ne_of_mem, hValue, ih]

theorem fillAtOnce_singleton_of_count (hHeader : IsPlainHeader header) {s : List Char}
    (hCount : placeholderCount header s = 0) : fillAtOnce [(header, value)] s = s := by
  have hNone := @fillAtOnce_concat [] header value (.singleton hHeader) s hCount
  rwa [fillAtOnce_nil] at hNone

theorem fillAtOnce_singleton_cut (hHeader : IsPlainHeader header) (first rest : List Char) :
    fillAtOnce [(header, value)] (first ++ (placeholder header ++ rest)) =
      fillAtOnce [(header, value)] first ++ (value.toList ++ fillAtOnce [(header, value)] rest) :=
  fillAtOnce_cut_of_mem (.singleton hHeader) List.mem_cons_self first rest

/-- The columns before have left the placeholders of the template and made no other one. -/
theorem fillAtOnce_singleton_of_count_eq (h : Separate (columns ++ [(header, value)])) {s : List Char}
    (hCount : placeholderCount header (fillAtOnce columns s) = placeholderCount header s) :
    fillAtOnce [(header, value)] (fillAtOnce columns s) = fillAtOnce (columns ++ [(header, value)]) s := by
  have hColumns := h.of_prefix (List.prefix_append columns _)
  have hMem : (header, value) ∈ columns ++ [(header, value)] := List.mem_append_right columns List.mem_cons_self
  induction cutAt header s with
  | last hNone => rw [fillAtOnce_concat h hNone, fillAtOnce_singleton_of_count h.plain_last (hCount.trans hNone)]
  | @more first rest hFirst _ ih =>
    have hLe := placeholderCount_le h rest
    rw [fillAtOnce_cut_of_ne hColumns h.plain_last h.ne_of_mem] at hCount ⊢
    rw [placeholderCount_cut h.plain_last, placeholderCount_cut h.plain_last, hFirst] at hCount
    rw [fillAtOnce_singleton_cut h.plain_last, fillAtOnce_cut_of_mem h hMem, fillAtOnce_concat h hFirst,
      fillAtOnce_singleton_of_count h.plain_last (by omega), ih (by omega)]

/-- The lengths tell how many placeholders have been filled. -/
theorem placeholderCount_eq_of_length_ne (h : Separate (columns ++ [(header, value)]))
    (hLength : value.toList.length ≠ (placeholder header).length) {s : List Char}
    (hFill : fillAtOnce [(header, value)] (fillAtOnce columns s) = fillAtOnce (columns ++ [(header, value)]) s) :
    placeholderCount header (fillAtOnce columns s) = placeholderCount header s := by
  have hTurn := @length_fillAtOnce_concat [] header value (.singleton h.plain_last) (fillAtOnce columns s)
  have hOnce := length_fillAtOnce_concat h s
  rw [List.nil_append, fillAtOnce_nil, hFill] at hTurn
  obtain ⟨more, hMore⟩ := Nat.exists_eq_add_of_le (placeholderCount_le h s)
  rw [hMore, Nat.add_mul, Nat.add_mul] at hTurn
  have hEqual : more * value.toList.length = more * (placeholder header).length := by omega
  rcases Nat.eq_zero_or_pos more with rfl | hPos
  · exact hMore
  · exact absurd (Nat.eq_of_mul_eq_mul_left hPos hEqual) hLength

theorem eq_placeholder_or_of_fill_eq_self (hHeader : IsPlainHeader header)
    (hLength : value.toList.length = (placeholder header).length) {s : List Char}
    (hFill : fillAtOnce [(header, value)] s = s) :
    value.toList = placeholder header ∨ placeholderCount header s = 0 := by
  cases cutAt header s with
  | last hCount => exact .inr hCount
  | @more first rest hFirst _ =>
    rw [fillAtOnce_singleton_cut hHeader, fillAtOnce_singleton_of_count hHeader hFirst] at hFill
    exact .inl (List.append_inj_left (List.append_cancel_left hFill) hLength)

/-- A value of the same length moves nothing, so that the texts agree part by part. -/
theorem eq_placeholder_or_of_length_eq (h : Separate (columns ++ [(header, value)]))
    (hLength : value.toList.length = (placeholder header).length) {s : List Char}
    (hFill : fillAtOnce [(header, value)] (fillAtOnce columns s) = fillAtOnce (columns ++ [(header, value)]) s) :
    value.toList = placeholder header ∨
      placeholderCount header (fillAtOnce columns s) = placeholderCount header s := by
  have hColumns := h.of_prefix (List.prefix_append columns _)
  have hMem : (header, value) ∈ columns ++ [(header, value)] := List.mem_append_right columns List.mem_cons_self
  induction cutAt header s with
  | last hNone =>
    rw [fillAtOnce_concat h hNone] at hFill
    rw [hNone]
    exact eq_placeholder_or_of_fill_eq_self h.plain_last hLength hFill
  | @more first rest hFirst _ ih =>
    have hSame : (fillAtOnce [(header, value)] (fillAtOnce columns first)).length = (fillAtOnce columns first).length := by
      have hTurn := @length_fillAtOnce_concat [] header value (.singleton h.plain_last) (fillAtOnce columns first)
      rw [List.nil_append, fillAtOnce_nil, hLength] at hTurn
      exact Nat.add_right_cancel hTurn
    rw [fillAtOnce_cut_of_ne hColumns h.plain_last h.ne_of_mem, fillAtOnce_singleton_cut h.plain_last,
      fillAtOnce_cut_of_mem h hMem, fillAtOnce_concat h hFirst] at hFill
    obtain ⟨hBefore, hAfter⟩ := List.append_inj hFill hSame
    rw [fillAtOnce_cut_of_ne hColumns h.plain_last h.ne_of_mem, placeholderCount_cut h.plain_last,
      placeholderCount_cut h.plain_last, hFirst]
    rcases eq_placeholder_or_of_fill_eq_self h.plain_last hLength hBefore with hValue | hBefore
    · exact .inl hValue
    · exact (ih (List.append_cancel_left hAfter)).imp_right fun hCount => by rw [hBefore, hCount]

/-- Filling one more column in turn is filling it at once, unless it finds a placeholder that the template does not
have. -/
theorem fillAtOnce_singleton_iff (h : Separate (columns ++ [(header, value)])) (s : List Char) :
    fillAtOnce [(header, value)] (fillAtOnce columns s) = fillAtOnce (columns ++ [(header, value)]) s ↔
      value.toList = placeholder header ∨
        placeholderCount header (fillAtOnce columns s) = placeholderCount header s := by
  constructor
  · intro hFill
    by_cases hLength : value.toList.length = (placeholder header).length
    · exact eq_placeholder_or_of_length_eq h hLength hFill
    · exact .inr (placeholderCount_eq_of_length_ne h hLength hFill)
  · rintro (hValue | hCount)
    · have hTurn := @fillAtOnce_concat_of_eq [] header value (.singleton h.plain_last) hValue (fillAtOnce columns s)
      rw [List.nil_append, fillAtOnce_nil] at hTurn
      rw [hTurn, fillAtOnce_concat_of_eq h hValue]
    · exact fillAtOnce_singleton_of_count_eq h hCount

end

/-! ## All columns -/

theorem fillInTurn_concat (columns : List (String × String)) (column : String × String) (s : List Char) :
    fillInTurn (columns ++ [column]) s = fillAtOnce [column] (fillInTurn columns s) := by
  rw [fillAtOnce_singleton, fillInTurn, List.foldl_append, ← fillInTurn]
  rfl

/-- A column finds its placeholder only where the template has it, though the columns before it have been filled. -/
def FindsOwn (template : List Char) (before : List (String × String)) (column : String × String) : Prop :=
  column.2.toList = placeholder column.1 ∨
    placeholderCount column.1 (fillAtOnce before template) = placeholderCount column.1 template

/-- Both ways agree at every column exactly if every column finds its own placeholders. -/
theorem forall_fillInTurn_iff {columns : List (String × String)} (h : Separate columns) (template : List Char) :
    (∀ before, before <+: columns → fillInTurn before template = fillAtOnce before template) ↔
      ∀ before column, before ++ [column] <+: columns → FindsOwn template before column := by
  constructor
  · rintro hAgree before ⟨header, value⟩ hPrefix
    have hBefore := hAgree before ((List.prefix_append before _).trans hPrefix)
    have hFill := hAgree _ hPrefix
    rw [fillInTurn_concat, hBefore] at hFill
    exact (fillAtOnce_singleton_iff (h.of_prefix hPrefix) template).mp hFill
  · intro hOwn before hPrefix
    induction before using List.reverseRecOn with
    | nil => exact (fillAtOnce_nil template).symm
    | append_singleton before column ih =>
      rw [fillInTurn_concat, ih ((List.prefix_append before _).trans hPrefix)]
      exact (fillAtOnce_singleton_iff (h.of_prefix hPrefix) template).mpr (hOwn before column hPrefix)

/-! ## Values without an opening bracket -/

/-- The placeholder stands behind an opening bracket of the template that nothing has closed. -/
def IsNested (header : String) (s : List Char) : Prop :=
  ∃ between, '<' ∉ between ∧ '>' ∉ between ∧ '<' :: (between ++ placeholder header) <:+: s

theorem exists_first_bracket (s : List Char) :
    ∃ between after, s = between ++ after ∧ '<' ∉ between ∧ '>' ∉ between ∧
      (after = [] ∨ (∃ rest, after = '<' :: rest) ∨ ∃ rest, after = '>' :: rest) := by
  induction s with
  | nil => exact ⟨[], [], rfl, List.not_mem_nil, List.not_mem_nil, .inl rfl⟩
  | cons c s ih =>
    by_cases hOpen : c = '<'
    · exact ⟨[], c :: s, rfl, List.not_mem_nil, List.not_mem_nil, .inr (.inl ⟨s, by rw [hOpen]⟩)⟩
    by_cases hClose : c = '>'
    · exact ⟨[], c :: s, rfl, List.not_mem_nil, List.not_mem_nil, .inr (.inr ⟨s, by rw [hClose]⟩)⟩
    obtain ⟨between, after, rfl, hBetween⟩ := ih
    exact ⟨c :: between, after, rfl, by simpa [Ne.symm hOpen, Ne.symm hClose] using hBetween⟩

/-- The first bracket of a text is of one kind. -/
theorem append_open_ne_append_close {first second : List Char} (hFirst : '>' ∉ first) (hSecond : '<' ∉ second)
    (rest tail : List Char) : first ++ '<' :: rest ≠ second ++ '>' :: tail := by
  intro h
  rcases List.append_eq_append_iff.mp h with ⟨more, rfl, hMore⟩ | ⟨more, rfl, hMore⟩
  · cases more with
    | nil => cases (List.cons.inj hMore).1
    | cons d more =>
      obtain ⟨rfl, -⟩ := List.cons.inj hMore
      simp at hSecond
  · cases more with
    | nil => cases (List.cons.inj hMore).1
    | cons d more =>
      obtain ⟨rfl, -⟩ := List.cons.inj hMore
      simp at hFirst

section

variable {columns : List (String × String)} {header : String}

/-- What the pass writes behind an opening bracket closes it only where the template does. -/
theorem exists_of_fillAtOnce_eq (h : Separate columns) (hHeader : IsPlainHeader header) {s tail : List Char}
    (hNested : ∀ column ∈ columns, ¬IsNested column.1 ('<' :: s))
    (hFill : fillAtOnce columns s = header.toList ++ '>' :: tail) : ∃ rest, s = header.toList ++ '>' :: rest := by
  obtain ⟨between, after, rfl, hOpen, hClose, hAfter⟩ := exists_first_bracket s
  rw [fillAtOnce_append hOpen] at hFill
  rcases hAfter with rfl | ⟨rest, rfl⟩ | ⟨rest, rfl⟩
  · rw [fillAtOnce, List.append_nil] at hFill
    exact absurd (by rw [hFill]; simp) hClose
  · cases hAt : columnAt? columns ('<' :: rest) with
    | some found =>
      obtain ⟨value, others⟩ := found
      obtain ⟨column, hMem, -, hText⟩ := (columnAt?_eq_some_iff h).mp hAt
      refine absurd ⟨between, hOpen, hClose, ?_⟩ (hNested column hMem)
      rw [hText]
      exact ⟨[], others, by simp⟩
    | none =>
      rw [fillAtOnce_of_none hAt] at hFill
      exact absurd hFill (append_open_ne_append_close hClose hHeader.1 _ _)
  · rw [fillAtOnce_of_none (columnAt?_eq_none_of_ne columns (by decide) rest)] at hFill
    obtain ⟨rfl, -⟩ := eq_and_eq_of_first_eq hClose hHeader.2 hFill
    exact ⟨rest, rfl⟩

theorem IsNested.mono {s t : List Char} (hInfix : s <:+: t) (h : IsNested header s) : IsNested header t := by
  obtain ⟨between, hOpen, hClose, hText⟩ := h
  exact ⟨between, hOpen, hClose, hText.trans hInfix⟩

theorem placeholder_prefix_iff (h : Separate columns) (hHeader : IsPlainHeader header)
    (hOther : ∀ column ∈ columns, column.1 ≠ header) {c : Char} {s : List Char}
    (hNested : ∀ column ∈ columns, ¬IsNested column.1 (c :: s)) (hAt : columnAt? columns (c :: s) = none) :
    placeholder header <+: c :: fillAtOnce columns s ↔ placeholder header <+: c :: s := by
  constructor
  · rintro ⟨tail, hTail⟩
    obtain ⟨rfl, hFill⟩ := List.cons.inj hTail
    have hText : fillAtOnce columns s = header.toList ++ '>' :: tail := by
      rw [← hFill]
      exact List.append_assoc header.toList ['>'] tail
    obtain ⟨rest, rfl⟩ := exists_of_fillAtOnce_eq h hHeader hNested hText
    exact ⟨rest, by simp [placeholder]⟩
  · rintro ⟨rest, hRest⟩
    have hFill := fillAtOnce_cut_of_ne h hHeader hOther [] rest
    rw [List.nil_append, hRest, fillAtOnce_of_none hAt, fillAtOnce, List.nil_append] at hFill
    exact ⟨_, hFill.symm⟩

/-- Values without an opening bracket make no new placeholder where none is nested. -/
theorem placeholderCount_fillAtOnce (h : Separate columns) (hHeader : IsPlainHeader header)
    (hOther : ∀ column ∈ columns, column.1 ≠ header) (hValues : ∀ column ∈ columns, '<' ∉ column.2.toList)
    {s : List Char} (hNested : ∀ column ∈ columns, ¬IsNested column.1 s) :
    placeholderCount header (fillAtOnce columns s) = placeholderCount header s := by
  fun_induction fillAtOnce columns s with
  | case1 => rfl
  | case2 c s value rest hAt ih =>
    obtain ⟨column, hMem, rfl, hText⟩ := (columnAt?_eq_some_iff h).mp hAt
    have hRest : rest <:+: c :: s := ⟨placeholder column.1, [], by rw [hText, List.append_nil]⟩
    rw [placeholderCount_append (hValues column hMem), ih fun other hOther hIn => hNested other hOther (hIn.mono hRest),
      hText, placeholderCount_placeholder hHeader (h.plain column hMem), if_neg (Ne.symm (hOther column hMem)),
      Nat.zero_add]
  | case3 c s hAt ih =>
    have hRest : s <:+: c :: s := (List.suffix_cons c s).isInfix
    rw [placeholderCount, placeholderCount, ih fun other hOther hIn => hNested other hOther (hIn.mono hRest)]
    simp only [placeholder_prefix_iff h hHeader hOther hNested hAt]

/-- Without opening brackets in the values and nested placeholders the columns can be filled in any order. -/
theorem fillInTurn_eq_fillAtOnce (h : Separate columns) (hValues : ∀ column ∈ columns, '<' ∉ column.2.toList)
    {template : List Char} (hNested : ∀ column ∈ columns, ¬IsNested column.1 template) :
    fillInTurn columns template = fillAtOnce columns template := by
  apply (forall_fillInTurn_iff h template).mpr
  · rintro before ⟨header, value⟩ hPrefix
    have hBoth := h.of_prefix hPrefix
    have hBefore := (List.prefix_append before _).trans hPrefix
    exact .inr (placeholderCount_fillAtOnce (h.of_prefix hBefore) hBoth.plain_last hBoth.ne_of_mem
      (fun column hMem => hValues column (hBefore.subset hMem))
      fun column hMem => hNested column (hBefore.subset hMem))
  · exact List.prefix_rfl

end

/-! ## Rows -/

def substituteAtOnce (template : String) (headers values : List String) : String :=
  String.ofList (fillAtOnce (headers.zip values) template.toList)

theorem substitute_eq_ofList (template : String) (headers values : List String) :
    substitute template headers values = String.ofList (fillInTurn (headers.zip values) template.toList) :=
  rfl

theorem prefix_zip_iff {headers values : List String} {before : List (String × String)} :
    before <+: headers.zip values ↔ ∃ first, first <+: headers ∧ before = first.zip values := by
  induction headers generalizing values before with
  | nil => simp
  | cons header headers ih =>
    cases values with
    | nil =>
      constructor
      · intro h
        exact ⟨[], List.nil_prefix, by simpa using h⟩
      · rintro ⟨first, -, rfl⟩
        simp
    | cons value values =>
      cases before with
      | nil => exact ⟨fun _ => ⟨[], List.nil_prefix, rfl⟩, fun _ => List.nil_prefix⟩
      | cons column before =>
        rw [List.zip_cons_cons, List.cons_prefix_cons, ih]
        constructor
        · rintro ⟨rfl, first, hFirst, rfl⟩
          exact ⟨header :: first, List.cons_prefix_cons.mpr ⟨rfl, hFirst⟩, rfl⟩
        · rintro ⟨first, hFirst, hZip⟩
          cases first with
          | nil => cases hZip
          | cons other first =>
            obtain ⟨rfl, hRest⟩ := List.cons_prefix_cons.mp hFirst
            obtain ⟨rfl, rfl⟩ := List.cons.inj hZip
            exact ⟨rfl, first, hRest, rfl⟩

theorem separate_zip {headers : List String} (hHeaders : ∀ header ∈ headers, IsPlainHeader header)
    (hDistinct : headers.Nodup) (values : List String) : Separate (headers.zip values) := by
  refine ⟨fun column hMem => hHeaders _ (List.of_mem_zip hMem).1, ?_⟩
  have hSublist : ∀ (headers values : List String), ((headers.zip values).map Prod.fst).Sublist headers := by
    intro headers
    induction headers with
    | nil => simp
    | cons header headers ih =>
      intro values
      cases values with
      | nil => simp
      | cons value values => simpa using ih values
  exact hDistinct.sublist (hSublist headers values)

/-- The columns filled in turn and all at once give one name at every column exactly if every column finds its own
placeholders only. They give it in every order of the columns if no value has an opening bracket and no placeholder
stands behind one; and the order never matters to the pass. -/
theorem substitute_eq_substituteAtOnce_iff (template : String) (headers values : List String)
    (hHeaders : ∀ header ∈ headers, IsPlainHeader header) (hDistinct : headers.Nodup) :
    ((∀ first, first <+: headers → substitute template first values = substituteAtOnce template first values) ↔
      ∀ before column, before ++ [column] <+: headers.zip values → FindsOwn template.toList before column) ∧
    ((∀ value ∈ values, '<' ∉ value.toList) → (∀ header ∈ headers, ¬IsNested header template.toList) →
      ∀ others cells, (others.zip cells).Perm (headers.zip values) →
        substitute template others cells = substituteAtOnce template headers values) ∧
    ∀ others cells, (others.zip cells).Perm (headers.zip values) →
      substituteAtOnce template others cells = substituteAtOnce template headers values := by
  have hColumns := separate_zip hHeaders hDistinct values
  refine ⟨?_, ?_, ?_⟩
  · rw [← forall_fillInTurn_iff hColumns]
    constructor
    · rintro hAgree before hPrefix
      obtain ⟨first, hFirst, rfl⟩ := prefix_zip_iff.mp hPrefix
      exact String.ofList_injective (hAgree first hFirst)
    · intro hAgree first hFirst
      rw [substitute_eq_ofList, substituteAtOnce, hAgree _ (prefix_zip_iff.mpr ⟨first, hFirst, rfl⟩)]
  · intro hValues hNested others cells hPerm
    have hOthers : Separate (others.zip cells) :=
      ⟨fun column hMem => hColumns.plain column (hPerm.subset hMem),
        (hPerm.map Prod.fst).nodup_iff.mpr hColumns.nodup⟩
    rw [substitute_eq_ofList, substituteAtOnce, ← fillAtOnce_perm hColumns hPerm, fillInTurn_eq_fillAtOnce hOthers]
    · exact fun column hMem => hValues _ (List.of_mem_zip (hPerm.subset hMem)).2
    · exact fun column hMem => hNested _ (List.of_mem_zip (hPerm.subset hMem)).1
  · intro others cells hPerm
    rw [substituteAtOnce, substituteAtOnce, fillAtOnce_perm hColumns hPerm]

/-- The value `<b>` is not read, as the column `b` has been filled before. -/
theorem substitute_eq_of_filled_before :
    (∀ before column, before ++ [column] <+: ["b", "a"].zip ["x", "<b>"] → FindsOwn "<a> <b>".toList before column) ∧
      substitute "<a> <b>" ["b", "a"] ["x", "<b>"] = "<b> x" ∧
      substituteAtOnce "<a> <b>" ["b", "a"] ["x", "<b>"] = "<b> x" := by
  have hOnce : substituteAtOnce "<a> <b>" ["b", "a"] ["x", "<b>"] = "<b> x" := by
    cbv
  have hOwn : ∀ before column, before ++ [column] <+: ["b", "a"].zip ["x", "<b>"] →
      FindsOwn "<a> <b>".toList before column := by
    rintro before column ⟨after, hAfter⟩
    cases before with
    | nil => exact .inr (by rw [fillAtOnce_nil])
    | cons first before =>
      obtain ⟨rfl, hRest⟩ := List.cons.inj hAfter
      cases before with
      | nil =>
        obtain ⟨rfl, -⟩ := List.cons.inj hRest
        exact .inr (by cbv)
      | cons second before =>
        obtain ⟨-, hNone⟩ := List.cons.inj hRest
        simp at hNone
  have hTurn := (substitute_eq_substituteAtOnce_iff "<a> <b>" ["b", "a"] ["x", "<b>"] (by decide) (by decide)).1.mpr hOwn
    _ List.prefix_rfl
  exact ⟨hOwn, hTurn.trans hOnce, hOnce⟩

/-- The value of the first column is the placeholder of the second. -/
theorem substitute_ne_of_placeholder_value :
    ¬ ∀ (template : String) (headers values : List String), (∀ header ∈ headers, IsPlainHeader header) →
      headers.Nodup → substitute template headers values = substituteAtOnce template headers values := by
  intro h
  have hTurn : substitute "<a>" ["a", "b"] ["<b>", "x"] = "x" := by
    cbv
  have hOnce : substituteAtOnce "<a>" ["a", "b"] ["<b>", "x"] = "<b>" := by
    cbv
  have hSame := h "<a>" ["a", "b"] ["<b>", "x"] (by decide) (by decide)
  rw [hTurn, hOnce] at hSame
  exact absurd hSame (by decide)

end ScenarioRunner.Feature
