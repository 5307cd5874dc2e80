import ScenarioRunner.Proofs.Text.Lines
import ScenarioRunner.Proofs.Text.Numeral
import ScenarioRunner.Report.Html

/-!
# Reading a page back

A page is a row of tags and texts. Where no bracket stands in a text or inside a tag, the page can be cut back into its
tags, each with the text after it. Escaping takes all brackets out of a text, and the text can be read back.
-/

namespace ScenarioRunner.Report.Html

open ScenarioRunner.Text

set_option autoImplicit false

def isBracket (c : Char) : Bool :=
  c == '<' || c == '>'

def IsPlain (s : List Char) : Prop :=
  ∀ c ∈ s, isBracket c = false

instance (s : List Char) : Decidable (IsPlain s) :=
  List.decidableBAll (fun c => isBracket c = false) s

inductive Part where
  | tag (inside : List Char)
  | text (s : List Char)

def Part.written : Part → List Char
  | .tag inside => '<' :: inside ++ ['>']
  | .text s => s

/-- No bracket stands in the part but those of the tag itself. -/
def Part.IsSound : Part → Prop
  | .tag inside => IsPlain inside
  | .text s => IsPlain s

instance (part : Part) : Decidable part.IsSound :=
  match part with
  | .tag inside => inferInstanceAs (Decidable (IsPlain inside))
  | .text s => inferInstanceAs (Decidable (IsPlain s))

def writtenAll (parts : List Part) : List Char :=
  parts.flatMap Part.written

/-- A tag with the text up to the next one. -/
structure Element where
  tag : List Char
  text : List Char
deriving DecidableEq

def Element.written (e : Element) : List Char :=
  e.tag ++ '>' :: e.text

def Element.ofPiece (piece : List Char) : Element where
  tag := piece.takeWhile (· != '>')
  text := (afterFirst? '>' piece).getD []

def elements (page : List Char) : List Element :=
  (pieces '<' page).tail.map Element.ofPiece

def leadOf : List Part → List Char
  | .text s :: parts => s ++ leadOf parts
  | _ => []

def elementsOf : List Part → List Element
  | [] => []
  | .tag inside :: parts => ⟨inside, leadOf parts⟩ :: elementsOf parts
  | .text _ :: parts => elementsOf parts

def tagsOf (parts : List Part) : List (List Char) :=
  (elementsOf parts).map (·.tag)

theorem tagsOf_text (s : List Char) (parts : List Part) : tagsOf (.text s :: parts) = tagsOf parts := rfl

theorem tagsOf_tag (inside : List Char) (parts : List Part) : tagsOf (.tag inside :: parts) = inside :: tagsOf parts :=
  rfl

theorem tagsOf_append (ps qs : List Part) : tagsOf (ps ++ qs) = tagsOf ps ++ tagsOf qs := by
  induction ps with
  | nil => rfl
  | cons part ps ih =>
    cases part with
    | tag inside => rw [List.cons_append, tagsOf_tag, ih, tagsOf_tag, List.cons_append]
    | text s => rw [List.cons_append, tagsOf_text, ih, tagsOf_text]

theorem tagsOf_flatMap {α : Type} (f : α → List Part) (xs : List α) :
    tagsOf (xs.flatMap f) = xs.flatMap fun x => tagsOf (f x) := by
  induction xs with
  | nil => rfl
  | cons x xs ih => rw [List.flatMap_cons, tagsOf_append, ih, List.flatMap_cons]

/-! ## Cutting a page into its elements -/

theorem IsPlain.append {s t : List Char} (hs : IsPlain s) (ht : IsPlain t) : IsPlain (s ++ t) := by
  intro c hc
  rcases List.mem_append.mp hc with hc | hc
  · exact hs c hc
  · exact ht c hc

theorem IsPlain.notMem {s : List Char} (h : IsPlain s) {c : Char} (hc : isBracket c = true) : c ∉ s := by
  intro hMem
  rw [h c hMem] at hc
  cases hc

theorem pieces_append_of_notMem {sep : Char} {s t first : List Char} {rest : List (List Char)} (h : sep ∉ s)
    (ht : pieces sep t = first :: rest) : pieces sep (s ++ t) = (s ++ first) :: rest := by
  induction s with
  | nil => exact ht
  | cons c s ih =>
    rw [List.mem_cons, not_or] at h
    rw [List.cons_append, pieces_cons, if_neg (Ne.symm h.1), ih h.2]
    rfl

theorem pieces_writtenAll {parts : List Part} (h : ∀ part ∈ parts, part.IsSound) :
    pieces '<' (writtenAll parts) = leadOf parts :: (elementsOf parts).map Element.written := by
  induction parts with
  | nil => rfl
  | cons part parts ih =>
    obtain ⟨hPart, hParts⟩ := List.forall_mem_cons.mp h
    have hRest := ih hParts
    rw [writtenAll, List.flatMap_cons, ← writtenAll]
    cases part with
    | text s => exact pieces_append_of_notMem (hPart.notMem rfl) hRest
    | tag inside =>
      have hInside := pieces_append_of_notMem (s := inside ++ ['>']) (by simpa using hPart.notMem rfl) hRest
      rw [Part.written, List.cons_append, List.cons_append, pieces_cons, if_pos rfl, hInside]
      simp [elementsOf, leadOf, Element.written]

theorem Element.ofPiece_written {e : Element} (h : IsPlain e.tag) : Element.ofPiece e.written = e := by
  have hTag : '>' ∉ e.tag := h.notMem rfl
  have hTake : e.written.takeWhile (· != '>') = e.tag := by
    apply takeWhile_append
    · intro c hc
      exact bne_iff_ne.mpr fun hEq => hTag (hEq ▸ hc)
    · exact head_cons (by decide) e.text
  rw [Element.ofPiece, hTake, Element.written, afterFirst?_append hTag]
  rfl

theorem isPlain_tag_of_mem_elementsOf {parts : List Part} (h : ∀ part ∈ parts, part.IsSound) :
    ∀ e ∈ elementsOf parts, IsPlain e.tag := by
  induction parts with
  | nil => simp [elementsOf]
  | cons part parts ih =>
    obtain ⟨hPart, hParts⟩ := List.forall_mem_cons.mp h
    cases part with
    | text s => exact ih hParts
    | tag inside => exact List.forall_mem_cons.mpr ⟨hPart, ih hParts⟩

theorem elements_writtenAll {parts : List Part} (h : ∀ part ∈ parts, part.IsSound) :
    elements (writtenAll parts) = elementsOf parts := by
  have hTags := isPlain_tag_of_mem_elementsOf h
  rw [elements, pieces_writtenAll h, List.tail_cons, List.map_map]
  conv_rhs => rw [← List.map_id (elementsOf parts)]
  exact List.map_congr_left fun e he => Element.ofPiece_written (hTags e he)

/-- The brackets of a page are those of its tags. -/
theorem filter_isBracket_writtenAll {parts : List Part} (h : ∀ part ∈ parts, part.IsSound) :
    (writtenAll parts).filter isBracket = (tagsOf parts).flatMap fun _ => ['<', '>'] := by
  induction parts with
  | nil => rfl
  | cons part parts ih =>
    obtain ⟨hPart, hParts⟩ := List.forall_mem_cons.mp h
    have hNone : ∀ s, IsPlain s → s.filter isBracket = [] := by
      intro s hs
      exact List.filter_eq_nil_iff.mpr fun c hc => by simp [hs c hc]
    rw [writtenAll, List.flatMap_cons, ← writtenAll, List.filter_append, ih hParts]
    cases part with
    | text s => rw [Part.written, hNone s hPart, List.nil_append, tagsOf_text]
    | tag inside =>
      rw [Part.written, List.cons_append, List.filter_cons, if_pos (by rfl), List.filter_append, hNone inside hPart]
      rfl

/-! ## Escaped text -/

def referenced? : List Char → Option Char
  | ['a', 'm', 'p'] => some '&'
  | ['l', 't'] => some '<'
  | ['g', 't'] => some '>'
  | ['q', 'u', 'o', 't'] => some '"'
  | ['a', 'p', 'o', 's'] => some '\''
  | '#' :: digits => if digits.all Char.isDigit then some (Char.ofNat (numeralValue digits)) else none
  | _ => none

def reference? : List Char → Option (Char × List Char)
  | '&' :: s => do
    let rest ← afterFirst? ';' s
    let c ← referenced? (s.takeWhile (· != ';'))
    return (c, rest)
  | _ => none

theorem length_of_reference? {s rest : List Char} {c : Char} (h : reference? s = some (c, rest)) :
    rest.length < s.length := by
  unfold reference? at h
  split at h
  · simp only [Option.bind_eq_bind, Option.bind_eq_some_iff, Option.pure_def, Option.some.injEq, Prod.mk.injEq] at h
    obtain ⟨_, hAfter, _, _, _, rfl⟩ := h
    have := length_of_afterFirst? hAfter
    simp only [List.length_cons]
    omega
  · cases h

def unescape : List Char → List Char
  | [] => []
  | c :: s =>
    match _h : reference? (c :: s) with
    | some (d, rest) => d :: unescape rest
    | none => c :: unescape s
termination_by s => s.length
decreasing_by
  · exact length_of_reference? _h
  · simp

theorem reference?_append {name : List Char} {c : Char} (hName : ';' ∉ name) (h : referenced? name = some c)
    (s : List Char) : reference? ('&' :: (name ++ ';' :: s)) = some (c, s) := by
  have hTake : (name ++ ';' :: s).takeWhile (· != ';') = name := by
    apply takeWhile_append
    · intro d hd
      exact bne_iff_ne.mpr fun hEq => hName (hEq ▸ hd)
    · exact head_cons (by decide) s
  simp only [reference?, afterFirst?_append hName s, hTake, h, Option.bind_eq_bind, Option.bind_some, Option.pure_def]

theorem unescape_reference {name : List Char} {c : Char} (hName : ';' ∉ name) (h : referenced? name = some c)
    (s : List Char) : unescape ('&' :: (name ++ ';' :: s)) = c :: unescape s := by
  have hReference := reference?_append hName h s
  rw [unescape]
  split
  · next hSome =>
    rw [hReference] at hSome
    cases hSome
    rfl
  · next hNone =>
    rw [hReference] at hNone
    cases hNone

theorem unescape_cons {c : Char} (h : c ≠ '&') (s : List Char) : unescape (c :: s) = c :: unescape s := by
  have hNone : reference? (c :: s) = none := by
    unfold reference?
    split
    · next hAmpersand => exact absurd (List.cons.inj hAmpersand).1 h
    · rfl
  rw [unescape]
  split
  · next hSome =>
    rw [hNone] at hSome
    cases hSome
  · rfl

/-- A character is escaped by a reference to it, or stands for itself. -/
theorem escapeChar_cases (c : Char) :
    (∃ name, escapeChar c = '&' :: (name ++ [';']) ∧ ';' ∉ name ∧ IsPlain name ∧ referenced? name = some c) ∨
      (escapeChar c = [c] ∧ c ≠ '&' ∧ isBracket c = false) := by
  unfold escapeChar
  split
  · exact Or.inl ⟨"amp".toList, by decide, by decide, by decide, by decide⟩
  · exact Or.inl ⟨"lt".toList, by decide, by decide, by decide, by decide⟩
  · exact Or.inl ⟨"gt".toList, by decide, by decide, by decide, by decide⟩
  · exact Or.inl ⟨"#39".toList, by decide, by decide, by decide, by decide⟩
  · exact Or.inl ⟨"#34".toList, by decide, by decide, by decide, by decide⟩
  · next hAmpersand hLess hGreater _ _ =>
    have hBracket : isBracket c = false :=
      Bool.or_eq_false_iff.mpr ⟨beq_eq_false_iff_ne.mpr hLess, beq_eq_false_iff_ne.mpr hGreater⟩
    exact Or.inr ⟨rfl, hAmpersand, hBracket⟩

theorem unescape_escape (s : List Char) : unescape (s.flatMap escapeChar) = s := by
  induction s with
  | nil => rw [List.flatMap_nil, unescape]
  | cons c s ih =>
    rw [List.flatMap_cons]
    rcases escapeChar_cases c with ⟨name, hName, hNotMem, -, hReference⟩ | ⟨hSelf, hAmpersand, -⟩
    · rw [hName, List.cons_append, List.append_assoc, List.singleton_append, unescape_reference hNotMem hReference, ih]
    · rw [hSelf, List.singleton_append, unescape_cons hAmpersand, ih]

theorem isPlain_escape (s : List Char) : IsPlain (s.flatMap escapeChar) := by
  intro d hd
  obtain ⟨c, _, hMem⟩ := List.mem_flatMap.mp hd
  rcases escapeChar_cases c with ⟨name, hName, -, hPlain, -⟩ | ⟨hSelf, -, hBracket⟩
  · rw [hName] at hMem
    have hAll : IsPlain ('&' :: (name ++ [';'])) :=
      IsPlain.append (s := ['&']) (by decide) (hPlain.append (by decide))
    exact hAll d hMem
  · rw [hSelf] at hMem
    rwa [List.mem_singleton.mp hMem]

end ScenarioRunner.Report.Html
