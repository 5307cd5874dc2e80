import Mathlib.Data.List.Permutation
import Mathlib.Tactic.Common
import ScenarioRunner.Feature.Placeholder
import ScenarioRunner.Proofs.Run.NamePattern

/-!
# What the pattern of an outline covers

A row is named by filling the placeholders of its outline column by column, and the pattern of the outline lets any text
pass in their place. Main statement: in a flat template every placeholder is filled alone, so that the pattern accepts
the name of every row, unless a header closes one placeholder and opens another.
-/

namespace ScenarioRunner.Run

open ScenarioRunner.Feature
open ScenarioRunner.Text

set_option autoImplicit false

/-! ## Flat templates -/

def IsBracket (c : Char) : Prop :=
  c = '<' ∨ c = '>'

instance (c : Char) : Decidable (IsBracket c) :=
  inferInstanceAs (Decidable (_ ∨ _))

/-- What may stand inside a placeholder, and what a cell may hold. -/
def IsPlain (s : List Char) : Prop :=
  ∀ c ∈ s, ¬IsBracket c ∧ c ≠ '\n'

instance (s : List Char) : Decidable (IsPlain s) :=
  List.decidableBAll (fun c => ¬IsBracket c ∧ c ≠ '\n') s

/-- All brackets pair up, and no pair stands inside another. -/
inductive IsFlat : List Char → Prop
  | nil : IsFlat []
  | char {c : Char} {s : List Char} (hChar : ¬IsBracket c) (h : IsFlat s) : IsFlat (c :: s)
  | placeholder {inside s : List Char} (hInside : IsPlain inside) (h : IsFlat s) :
      IsFlat ('<' :: (inside ++ '>' :: s))

/-- The header of a column that no single placeholder can have. -/
def Spans (header : List Char) : Prop :=
  ∃ before between after, header = before ++ '>' :: (between ++ '<' :: after)

theorem IsPlain.notMem {s : List Char} (h : IsPlain s) : '<' ∉ s ∧ '>' ∉ s ∧ '\n' ∉ s :=
  ⟨fun hOpen => (h _ hOpen).1 (.inl rfl), fun hClose => (h _ hClose).1 (.inr rfl), fun hFeed => (h _ hFeed).2 rfl⟩

theorem IsFlat.append {s t : List Char} (hs : IsPlain s) (ht : IsFlat t) : IsFlat (s ++ t) := by
  induction s with
  | nil => exact ht
  | cons c s ih =>
    exact .char (hs c List.mem_cons_self).1 (ih fun d hd => hs d (List.mem_cons_of_mem c hd))

theorem IsFlat.open_mem {before after : List Char} (h : IsFlat (before ++ '>' :: after)) : '<' ∈ before := by
  generalize hs : before ++ '>' :: after = s at h
  induction h generalizing before with
  | nil => cases before <;> cases hs
  | char hChar _ ih =>
    cases before with
    | nil =>
      cases hs
      exact absurd (.inr rfl) hChar
    | cons d before =>
      obtain ⟨-, hRest⟩ := List.cons.inj hs
      exact List.mem_cons_of_mem d (ih hRest)
  | placeholder _ _ _ =>
    cases before with
    | nil => cases hs
    | cons d before =>
      obtain ⟨rfl, -⟩ := List.cons.inj hs
      exact List.mem_cons_self

/-! ## Partly filled templates -/

/-- Some placeholders of the template have been filled, and the others are as they were. -/
inductive PartlyFilled : List Char → List Char → Prop
  | nil : PartlyFilled [] []
  | char {c : Char} {template name : List Char} (hChar : ¬IsBracket c) (h : PartlyFilled template name) :
      PartlyFilled (c :: template) (c :: name)
  | kept {inside template name : List Char} (hInside : IsPlain inside) (h : PartlyFilled template name) :
      PartlyFilled ('<' :: (inside ++ '>' :: template)) ('<' :: (inside ++ '>' :: name))
  | filled {inside value template name : List Char} (hInside : IsPlain inside) (hValue : IsPlain value)
      (h : PartlyFilled template name) : PartlyFilled ('<' :: (inside ++ '>' :: template)) (value ++ name)

theorem IsFlat.partlyFilled {template : List Char} (h : IsFlat template) : PartlyFilled template template := by
  induction h with
  | nil => exact .nil
  | char hChar _ ih => exact .char hChar ih
  | placeholder hInside _ ih => exact .kept hInside ih

theorem PartlyFilled.isFlat {template name : List Char} (h : PartlyFilled template name) : IsFlat name := by
  induction h with
  | nil => exact .nil
  | char hChar _ ih => exact .char hChar ih
  | kept hInside _ ih => exact .placeholder hInside ih
  | filled _ hValue _ ih => exact IsFlat.append hValue ih

section

variable {header value : List Char}

theorem fill_append {s : List Char} (h : '<' ∉ s) (rest : List Char) :
    fill header value (s ++ rest) = s ++ fill header value rest := by
  induction s with
  | nil => rfl
  | cons c s ih =>
    rw [List.mem_cons, not_or] at h
    rw [List.cons_append, fill, if_neg (Ne.symm h.1), ih h.2, List.cons_append]

/-- A header that spans nothing is found in a flat text only as a whole placeholder. -/
theorem eq_of_after?_header (hHeader : ¬Spans header) {inside name rest : List Char} (hInside : IsPlain inside)
    (hName : IsFlat name) (h : after? (header ++ ['>']) (inside ++ '>' :: name) = some rest) :
    header = inside ∧ rest = name := by
  rw [after?_eq_some_iff, List.append_assoc, List.cons_append, List.nil_append] at h
  by_cases hClose : '>' ∈ header
  · obtain ⟨first, later, rfl, hFirst⟩ := List.eq_append_cons_of_mem hClose
    rw [List.append_assoc, List.cons_append] at h
    obtain ⟨rfl, rfl⟩ := eq_and_eq_of_first_eq hInside.notMem.2.1 hFirst h
    -- The header goes on behind the placeholder, where a closing bracket needs an opening one.
    obtain ⟨between, after, rfl⟩ := List.append_of_mem hName.open_mem
    exact absurd ⟨inside, between, after, rfl⟩ hHeader
  · obtain ⟨rfl, rfl⟩ := eq_and_eq_of_first_eq hInside.notMem.2.1 hClose h
    exact ⟨rfl, rfl⟩

theorem fill_placeholder (hHeader : ¬Spans header) {inside name : List Char} (hInside : IsPlain inside)
    (hName : IsFlat name) : fill header value ('<' :: (inside ++ '>' :: name)) =
      if header = inside then value ++ fill header value name
      else '<' :: (inside ++ '>' :: fill header value name) := by
  rw [fill, if_pos rfl]
  split
  · next rest hAfter =>
    obtain ⟨rfl, rfl⟩ := eq_of_after?_header hHeader hInside hName hAfter
    rw [if_pos rfl]
  · next hNone =>
    have hOther : header ≠ inside := by
      rintro rfl
      have hAfter := after?_append (header ++ ['>']) name
      rw [List.append_assoc, List.singleton_append, hNone] at hAfter
      cases hAfter
    rw [if_neg hOther, fill_append hInside.notMem.1, fill, if_neg (by decide)]

theorem PartlyFilled.fill (hHeader : ¬Spans header) (hValue : IsPlain value) {template name : List Char}
    (h : PartlyFilled template name) : PartlyFilled template (fill header value name) := by
  induction h with
  | nil =>
    rw [Feature.fill]
    exact .nil
  | @char c template name hChar _ ih =>
    rw [Feature.fill, if_neg fun hOpen => hChar (.inl hOpen)]
    exact .char hChar ih
  | @kept inside template name hInside h ih =>
    rw [fill_placeholder hHeader hInside h.isFlat]
    split
    · exact .filled hInside hValue ih
    · exact .kept hInside ih
  | @filled inside earlier template name hInside hEarlier _ ih =>
    rw [fill_append hEarlier.notMem.1]
    exact .filled hInside hEarlier ih

end

theorem PartlyFilled.foldl_fill {columns : List (String × String)}
    (hColumns : ∀ column ∈ columns, ¬Spans column.1.toList ∧ IsPlain column.2.toList) {template name : List Char}
    (h : PartlyFilled template name) : PartlyFilled template
      (columns.foldl (fun name column => Feature.fill column.1.toList column.2.toList name) name) := by
  induction columns generalizing name with
  | nil => exact h
  | cons column columns ih =>
    obtain ⟨hHeader, hValue⟩ := hColumns column List.mem_cons_self
    exact ih (fun next hNext => hColumns next (List.mem_cons_of_mem column hNext)) (h.fill hHeader hValue)

theorem partlyFilled_substitute {template : String} (hTemplate : IsFlat template.toList) {headers values : List String}
    (hHeaders : ∀ header ∈ headers, ¬Spans header.toList) (hValues : ∀ value ∈ values, IsPlain value.toList) :
    PartlyFilled template.toList (substitute template headers values).toList := by
  rw [substitute, String.toList_ofList]
  apply PartlyFilled.foldl_fill
  · intro column hColumn
    obtain ⟨hHeader, hValue⟩ := List.of_mem_zip hColumn
    exact ⟨hHeaders _ hHeader, hValues _ hValue⟩
  · exact hTemplate.partlyFilled

/-! ## The pattern of the template -/

theorem Cut.cons {c : Char} (hChar : c ≠ '<') {s first : List Char} {more : List (List Char)} (h : Cut s first more) :
    Cut (c :: s) (c :: first) more := by
  cases h with
  | plain hNone =>
    refine .plain fun hHas => ?_
    rw [hasPlaceholder_cons_iff] at hHas
    rcases hHas with ⟨rfl, -⟩ | hHas
    · exact hChar rfl
    · exact hNone hHas
  | placeholder hFirst hInside hRest =>
    exact .placeholder (List.not_mem_cons_of_ne_of_not_mem (Ne.symm hChar) hFirst) hInside hRest

/-- A partly filled template has the literal parts of the template in their order. -/
theorem PartlyFilled.exists_fillings {template name : List Char} (h : PartlyFilled template name) :
    ∃ first more fillings, Cut template first more ∧ fillings.length = more.length ∧
      (∀ filling ∈ fillings, '\n' ∉ filling) ∧ name = woven first more fillings := by
  have hNext : ∀ {inside filling template name : List Char}, IsPlain inside → '\n' ∉ filling →
      (∃ first more fillings, Cut template first more ∧ fillings.length = more.length ∧
        (∀ filling ∈ fillings, '\n' ∉ filling) ∧ name = woven first more fillings) →
      ∃ first more fillings, Cut ('<' :: (inside ++ '>' :: template)) first more ∧ fillings.length = more.length ∧
        (∀ filling ∈ fillings, '\n' ∉ filling) ∧ filling ++ name = woven first more fillings := by
    rintro inside filling template _ hInside hFilling ⟨first, more, fillings, hCut, hLength, hFeed, rfl⟩
    refine ⟨[], first :: more, filling :: fillings, .placeholder (List.not_mem_nil) hInside.notMem.2.1 hCut,
      by simp [hLength], ?_, by simp [woven]⟩
    exact List.forall_mem_cons.mpr ⟨hFilling, hFeed⟩
  induction h with
  | nil => exact ⟨[], [], [], .plain (by decide), rfl, by simp, rfl⟩
  | @char c template name hChar _ ih =>
    obtain ⟨first, more, fillings, hCut, hLength, hFeed, rfl⟩ := ih
    exact ⟨c :: first, more, fillings, hCut.cons fun hOpen => hChar (.inl hOpen), hLength, hFeed, rfl⟩
  | @kept inside template name hInside _ ih =>
    have hFilling : '\n' ∉ '<' :: (inside ++ ['>']) := by simp [hInside.notMem]
    simpa using hNext hInside hFilling ih
  | filled hInside hValue _ ih => exact hNext hInside hValue.notMem.2.2 ih

/-- Whatever the columns, the pattern of an outline accepts the name of each of its rows, if no header closes one
placeholder and opens another. -/
theorem accepts_substitute {template : String} (hTemplate : IsFlat template.toList) {headers values : List String}
    (hHeaders : ∀ header ∈ headers, ¬Spans header.toList) (hValues : ∀ value ∈ values, IsPlain value.toList) :
    Accepts (namePattern template) (substitute template headers values) := by
  obtain ⟨first, more, fillings, hCut, hLength, hFeed, hName⟩ :=
    (partlyFilled_substitute hTemplate hHeaders hValues).exists_fillings
  exact (accepts_iff_exists_fillings hCut).mpr ⟨fillings, hLength, hFeed, hName⟩

/-- A repeated header does nothing the second time, and a column without a cell keeps its placeholder. -/
theorem accepts_substitute_of_short_row :
    substitute "<user> pays <sum> (<user>)" ["user", "user", "sum"] ["Ann", "Bob"] = "Ann pays <sum> (Ann)" ∧
      Accepts (namePattern "<user> pays <sum> (<user>)") "Ann pays <sum> (Ann)" := by
  have hName : substitute "<user> pays <sum> (<user>)" ["user", "user", "sum"] ["Ann", "Bob"] =
      "Ann pays <sum> (Ann)" := by
    cbv
  have hTemplate : IsFlat "<user> pays <sum> (<user>)".toList := by
    change IsFlat ('<' :: ("user".toList ++ '>' :: (" pays ".toList ++ '<' :: ("sum".toList ++ '>' ::
      (" (".toList ++ '<' :: ("user".toList ++ '>' :: (")".toList ++ [])))))))
    apply IsFlat.placeholder (by decide)
    apply IsFlat.append (by decide)
    apply IsFlat.placeholder (by decide)
    apply IsFlat.append (by decide)
    apply IsFlat.placeholder (by decide)
    exact IsFlat.append (by decide) .nil
  have hHeaders : ∀ header ∈ ["user", "user", "sum"], ¬Spans header.toList := by
    have hClose : ∀ header ∈ ["user", "user", "sum"], '>' ∉ header.toList := by decide
    rintro header hHeader ⟨before, between, after, hSpans⟩
    exact hClose header hHeader (by simp [hSpans])
  have hValues : ∀ value ∈ ["Ann", "Bob"], IsPlain value.toList := by decide
  have hAccepts := accepts_substitute hTemplate hHeaders hValues
  rw [hName] at hAccepts
  exact ⟨hName, hAccepts⟩

/-- The header `b>y<c` has two placeholders filled at once, with the text between them. -/
theorem not_accepts_of_spanning_header :
    ¬ ∀ (template : String) (headers values : List String), IsFlat template.toList →
      (∀ value ∈ values, IsPlain value.toList) → Accepts (namePattern template) (substitute template headers values) := by
  intro h
  have hName : substitute "x<b>y<c>z" ["b>y<c"] ["v"] = "xvz" := by
    cbv
  have hTemplate : IsFlat "x<b>y<c>z".toList := by
    change IsFlat ("x".toList ++ '<' :: ("b".toList ++ '>' :: ("y".toList ++ '<' :: ("c".toList ++ '>' ::
      ("z".toList ++ [])))))
    apply IsFlat.append (by decide)
    apply IsFlat.placeholder (by decide)
    apply IsFlat.append (by decide)
    apply IsFlat.placeholder (by decide)
    exact IsFlat.append (by decide) .nil
  have hCut : Cut "x<b>y<c>z".toList "x".toList ["y".toList, "z".toList] := by
    change Cut ("x".toList ++ '<' :: ("b".toList ++ '>' :: ("y".toList ++ '<' :: ("c".toList ++ '>' :: "z".toList))))
      "x".toList ["y".toList, "z".toList]
    exact .placeholder (by decide) (by decide) (.placeholder (by decide) (by decide) (.plain (by decide)))
  have hAccepts := h "x<b>y<c>z" ["b>y<c"] ["v"] hTemplate (by decide)
  rw [hName, accepts_iff_exists_fillings hCut] at hAccepts
  obtain ⟨fillings, hLength, -, hWoven⟩ := hAccepts
  obtain ⟨first, second, rfl⟩ := List.length_eq_two.mp hLength
  have hMem : 'y' ∈ "xvz".toList := by
    rw [hWoven]
    simp [woven]
  exact absurd hMem (by decide)

end ScenarioRunner.Run
