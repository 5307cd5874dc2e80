import Mathlib.Tactic.Common
import ScenarioRunner.Proofs.Text.Numeral
import ScenarioRunner.Transcript.CountPhrase

/-!
# Written count phrases

A written count phrase is its numeral, the noun, and its entries in parentheses, joined by commas. Main statement: a
written phrase is read back as itself, with the text after it left over.
-/

namespace ScenarioRunner.Transcript

open ScenarioRunner.Text

set_option autoImplicit false

/-! ## Entries -/

structure Entry.WellFormed (e : Entry) : Prop where
  numeral_ne_nil : e.numeral ≠ []
  isDigit_numeral : ∀ c ∈ e.numeral, isDigit c = true
  word_ne_nil : e.word ≠ []
  isLowerLetter_word : ∀ c ∈ e.word, isLowerLetter c = true

def Entry.text (e : Entry) : List Char :=
  e.numeral ++ ' ' :: e.word

def entriesText (entries : List Entry) : List Char :=
  [',', ' '].intercalate (entries.map Entry.text)

theorem entriesText_singleton (e : Entry) : entriesText [e] = e.text := by
  simp [entriesText]

theorem entriesText_cons_cons (e next : Entry) (entries : List Entry) :
    entriesText (e :: next :: entries) = e.text ++ ',' :: ' ' :: entriesText (next :: entries) := by
  simp [entriesText, List.intercalate]

theorem Entry.read?_text {e : Entry} (h : e.WellFormed) {rest : List Char}
    (hRest : ∀ c ∈ rest.head?, isLowerLetter c = false) : Entry.read? (e.text ++ rest) = some (e, rest) := by
  have hNumeral : run? isDigit (e.numeral ++ ([' '] ++ (e.word ++ rest))) =
      some (e.numeral, [' '] ++ (e.word ++ rest)) :=
    run?_digits h.numeral_ne_nil h.isDigit_numeral (by decide) (e.word ++ rest)
  have hText : e.text ++ rest = e.numeral ++ ([' '] ++ (e.word ++ rest)) := by simp [Entry.text]
  rw [Entry.read?, hText, hNumeral]
  simp only [Option.bind_eq_bind, Option.bind_some, after?_append,
    run?_append h.word_ne_nil h.isLowerLetter_word hRest]
  rfl

theorem Entry.read?_eq_none {s : List Char} (h : ∀ c ∈ s.head?, isDigit c = false) : Entry.read? s = none := by
  rw [Entry.read?, run?_eq_none h]
  rfl

theorem Entry.findAll_of_read? {s rest : List Char} {e : Entry} (h : Entry.read? s = some (e, rest)) :
    Entry.findAll s = e :: Entry.findAll rest := by
  cases s with
  | nil =>
    rw [Entry.read?_eq_none (by simp)] at h
    cases h
  | cons c s =>
    rw [Entry.findAll]
    split
    · next found tail hFound =>
      rw [h] at hFound
      cases hFound
      rfl
    · next hNone =>
      rw [h] at hNone
      cases hNone

theorem Entry.findAll_cons {c : Char} (hc : isDigit c = false) (s : List Char) :
    Entry.findAll (c :: s) = Entry.findAll s := by
  have hNone : Entry.read? (c :: s) = none := Entry.read?_eq_none (by simpa using hc)
  rw [Entry.findAll]
  split
  · next found tail hFound =>
    rw [hNone] at hFound
    cases hFound
  · rw [if_neg (by simp [hc])]

theorem Entry.findAll_entriesText {entries : List Entry} (h : ∀ e ∈ entries, e.WellFormed) :
    Entry.findAll (entriesText entries) = entries := by
  induction entries with
  | nil => simp [entriesText, Entry.findAll]
  | cons e entries ih =>
    have hFirst := h e List.mem_cons_self
    have hOthers := ih fun other hOther => h other (List.mem_cons_of_mem _ hOther)
    cases entries with
    | nil =>
      have hRead : Entry.read? (e.text ++ []) = some (e, []) := Entry.read?_text hFirst (by simp)
      rw [List.append_nil] at hRead
      rw [entriesText_singleton, Entry.findAll_of_read? hRead, Entry.findAll]
    | cons next entries =>
      have hRead : Entry.read? (e.text ++ ',' :: ' ' :: entriesText (next :: entries)) =
          some (e, ',' :: ' ' :: entriesText (next :: entries)) := by
        apply Entry.read?_text hFirst
        intro c hc
        cases hc
        decide
      rw [entriesText_cons_cons, Entry.findAll_of_read? hRead, Entry.findAll_cons (by decide),
        Entry.findAll_cons (by decide), hOthers]

/-! ## Phrases -/

structure CountPhrase.WellFormed (p : CountPhrase) : Prop where
  numeral_ne_nil : p.numeral ≠ []
  isDigit_numeral : ∀ c ∈ p.numeral, isDigit c = true
  entries : ∀ e ∈ p.breakdown.getD [], e.WellFormed

def breakdownText : Option (List Entry) → List Char
  | none => []
  | some entries => ' ' :: '(' :: (entriesText entries ++ [')'])

def CountPhrase.text (noun : String) (plural : Bool) (p : CountPhrase) : List Char :=
  p.numeral ++ ' ' :: (noun.toList ++ (if plural then ['s'] else [])) ++ breakdownText p.breakdown

/-- A text that can stand after a phrase without entries and is not taken for its entries. -/
structure EndsPhrase (rest : List Char) : Prop where
  endsWord : endsWord rest = true
  not_parenthesised : parenthesised? rest = none
  not_listed : listed? rest = none

theorem afterNoun?_append (noun : List Char) (plural : Bool) {rest : List Char} (h : endsWord rest = true) :
    afterNoun? noun (noun ++ (if plural then ['s'] else []) ++ rest) = some rest := by
  rw [afterNoun?, List.append_assoc, after?_append]
  cases plural with
  | true => simp [after?, h]
  | false =>
    have hLetter : after? ['s'] rest = none := by
      cases rest with
      | nil => rfl
      | cons c rest =>
        have hc : 's' ≠ c := by
          rintro rfl
          simp [ScenarioRunner.Text.endsWord, show isWordChar 's' = true by decide] at h
        simp [after?, hc]
    simp [hLetter, h]

theorem mem_entriesText {entries : List Entry} (h : ∀ e ∈ entries, e.WellFormed) {c : Char}
    (hc : c ∈ entriesText entries) : isDigit c = true ∨ isLowerLetter c = true ∨ c = ',' ∨ c = ' ' := by
  induction entries with
  | nil => simp [entriesText] at hc
  | cons e entries ih =>
    have hFirst := h e List.mem_cons_self
    have hText : c ∈ e.text → isDigit c = true ∨ isLowerLetter c = true ∨ c = ',' ∨ c = ' ' := by
      rw [Entry.text, List.mem_append, List.mem_cons]
      rintro (hNumeral | rfl | hWord)
      · exact Or.inl (hFirst.isDigit_numeral c hNumeral)
      · exact Or.inr (Or.inr (Or.inr rfl))
      · exact Or.inr (Or.inl (hFirst.isLowerLetter_word c hWord))
    cases entries with
    | nil =>
      rw [entriesText_singleton] at hc
      exact hText hc
    | cons next entries =>
      rw [entriesText_cons_cons, List.mem_append, List.mem_cons, List.mem_cons] at hc
      rcases hc with hc | rfl | rfl | hc
      · exact hText hc
      · exact Or.inr (Or.inr (Or.inl rfl))
      · exact Or.inr (Or.inr (Or.inr rfl))
      · exact ih (fun other hOther => h other (List.mem_cons_of_mem _ hOther)) hc

theorem parenthesised?_entriesText {entries : List Entry} (h : ∀ e ∈ entries, e.WellFormed) (rest : List Char) :
    parenthesised? (breakdownText (some entries) ++ rest) = some (entries, rest) := by
  have hClose : ')' ∉ entriesText entries := by
    intro hMem
    rcases mem_entriesText h hMem with hc | hc | hc | hc
    · exact absurd hc (by decide)
    · exact absurd hc (by decide)
    · exact absurd hc (by decide)
    · exact absurd hc (by decide)
  have hTrim : trimLeft (breakdownText (some entries) ++ rest) = ['('] ++ (entriesText entries ++ ')' :: rest) := by
    simp [breakdownText, trimLeft, show isBlank ' ' = true by decide, show isBlank '(' = false by decide]
  have hInside : (entriesText entries ++ ')' :: rest).takeWhile (· != ')') = entriesText entries := by
    apply takeWhile_append
    · intro c hc
      have : c ≠ ')' := fun hEq => hClose (hEq ▸ hc)
      simpa using this
    · simp
  rw [parenthesised?, hTrim, after?_append]
  simp only [Option.bind_eq_bind, Option.bind_some, afterFirst?_append hClose, hInside,
    Entry.findAll_entriesText h]
  rfl

theorem endsWord_breakdownText {breakdown : Option (List Entry)} {rest : List Char}
    (hRest : breakdown = none → EndsPhrase rest) : endsWord (breakdownText breakdown ++ rest) = true := by
  cases breakdown with
  | none => exact (hRest rfl).endsWord
  | some entries => simp [breakdownText, endsWord, show isWordChar ' ' = false by decide]

/-- What is read after a numeral and the noun is what the breakdown, if any, leaves over. -/
theorem CountPhrase.read?_noun {noun : String} {numeral : List Char} (hNonempty : numeral ≠ [])
    (hNumeral : ∀ c ∈ numeral, isDigit c = true) (plural : Bool) {rest : List Char} (hRest : endsWord rest = true) :
    CountPhrase.read? noun (numeral ++ ' ' :: (noun.toList ++ (if plural then ['s'] else [])) ++ rest) =
      match (parenthesised? rest).or (listed? rest) with
      | some (entries, tail) => some (⟨numeral, some entries⟩, tail)
      | none => some (⟨numeral, none⟩, rest) := by
  have hRun : run? isDigit (numeral ++ ([' '] ++ (noun.toList ++ (if plural then ['s'] else []) ++ rest))) =
      some (numeral, [' '] ++ (noun.toList ++ (if plural then ['s'] else []) ++ rest)) :=
    run?_digits hNonempty hNumeral (by decide) _
  have hText : numeral ++ ' ' :: (noun.toList ++ (if plural then ['s'] else [])) ++ rest =
      numeral ++ ([' '] ++ (noun.toList ++ (if plural then ['s'] else []) ++ rest)) := by
    simp
  rw [CountPhrase.read?, hText, hRun]
  simp only [Option.bind_eq_bind, Option.bind_some, after?_append, afterNoun?_append noun.toList plural hRest]
  rfl

/-- A written phrase is read back. If it has no entries, the text after it must not look like some. -/
theorem CountPhrase.read?_text {noun : String} {p : CountPhrase} (h : p.WellFormed) (plural : Bool) {rest : List Char}
    (hRest : p.breakdown = none → EndsPhrase rest) :
    CountPhrase.read? noun (p.text noun plural ++ rest) = some (p, rest) := by
  obtain ⟨numeral, breakdown⟩ := p
  rw [CountPhrase.text, List.append_assoc,
    CountPhrase.read?_noun h.numeral_ne_nil h.isDigit_numeral plural (endsWord_breakdownText hRest)]
  cases breakdown with
  | none =>
    simp only [breakdownText, List.nil_append, (hRest rfl).not_parenthesised, (hRest rfl).not_listed]
    rfl
  | some entries =>
    have hEntries : ∀ e ∈ entries, e.WellFormed := h.entries
    rw [parenthesised?_entriesText hEntries rest]
    rfl

/-- The end of a text, or of a line before one that starts with a digit, ends a phrase. -/
theorem endsPhrase_nil : EndsPhrase [] :=
  ⟨rfl, rfl, rfl⟩

theorem endsPhrase_line {rest : List Char} (h : ∀ c ∈ rest.head?, isDigit c = true) : EndsPhrase ('\n' :: rest) where
  endsWord := by simp [endsWord, show isWordChar '\n' = false by decide]
  not_parenthesised := by
    have hTrim : trimLeft ('\n' :: rest) = rest := by
      cases rest with
      | nil => simp [trimLeft, show isBlank '\n' = true by decide]
      | cons c rest => simp [trimLeft, show isBlank '\n' = true by decide, isBlank_of_isDigit (h c rfl)]
    rw [parenthesised?, hTrim]
    cases rest with
    | nil => rfl
    | cons c rest =>
      have hc : '(' ≠ c := by
        rintro rfl
        exact absurd (h '(' rfl) (by decide)
      simp [after?, hc]
  not_listed := by simp [listed?, after?]

end ScenarioRunner.Transcript
