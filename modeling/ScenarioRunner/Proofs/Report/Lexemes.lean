import ScenarioRunner.Proofs.Text.Numeral
import ScenarioRunner.Report.Json

/-!
# Lexemes of a document

A document is a row of marks, quoted texts and words, with blanks between them. A word is a number, a truth value or a
name, and ends at the next mark, quote or blank. Main statement: a quoted text is read back with every character as it
was, whatever follows it.
-/

namespace ScenarioRunner.Report.Json

open ScenarioRunner.Text

set_option autoImplicit false

inductive Lexeme where
  | mark (c : Char)
  | text (s : String)
  | word (s : String)
deriving DecidableEq

def isSpace (c : Char) : Bool :=
  " \n\t\r".toList.contains c

def isMark (c : Char) : Bool :=
  "[]\x7b\x7d,:".toList.contains c

def isWordChar (c : Char) : Bool :=
  !isSpace c && !isMark c && c != '"'

/-! ## Quoted texts -/

def namedBy? : Char → Option Char
  | '"' => some '"'
  | '\\' => some '\\'
  | '/' => some '/'
  | 'b' => some '\x08'
  | 'f' => some '\x0c'
  | 'n' => some '\n'
  | 'r' => some '\r'
  | 't' => some '\t'
  | _ => none

def coded? (digits : List Char) : Option Char := do
  let code ← hexNumber? digits
  if code.isValidChar then some (Char.ofNat code) else none

def character? : List Char → Option (Char × List Char)
  | '\\' :: 'u' :: s => if s.length < 4 then none else (coded? (s.take 4)).map fun c => (c, s.drop 4)
  | '\\' :: c :: s => (namedBy? c).map fun d => (d, s)
  | c :: s => if c = '"' ∨ c.toNat < 32 then none else some (c, s)
  | [] => none

theorem length_of_character? {s rest : List Char} {c : Char} (h : character? s = some (c, rest)) :
    rest.length < s.length := by
  unfold character? at h
  split at h
  · split at h
    · cases h
    · obtain ⟨d, -, hRest⟩ := Option.map_eq_some_iff.mp h
      cases hRest
      simp only [List.length_drop, List.length_cons]
      omega
  · obtain ⟨d, -, hRest⟩ := Option.map_eq_some_iff.mp h
    cases hRest
    simp only [List.length_cons]
    omega
  · split at h
    · cases h
    · cases h
      simp
  · cases h

def unquote? (s : List Char) : Option (List Char × List Char) :=
  match s with
  | '"' :: rest => some ([], rest)
  | s =>
    match _h : character? s with
    | some (c, rest) => (unquote? rest).map fun read => (c :: read.1, read.2)
    | none => none
termination_by s.length
decreasing_by exact length_of_character? _h

theorem character?_escapeChar (c : Char) (rest : List Char) : character? (escapeChar c ++ rest) = some (c, rest) := by
  have hCodes : ∀ n < 32, (hexDigits 4 n).length = 4 ∧ coded? (hexDigits 4 n) = some (Char.ofNat n) := by decide
  unfold escapeChar
  split
  · rfl
  · rfl
  · rfl
  · rfl
  · rfl
  · rfl
  · rfl
  · next hQuote hBackslash _ _ _ _ _ =>
    split
    · next hControl =>
      obtain ⟨hLength, hCode⟩ := hCodes c.toNat hControl
      have hTake : (hexDigits 4 c.toNat ++ rest).take 4 = hexDigits 4 c.toNat := List.take_left' hLength
      have hDrop : (hexDigits 4 c.toNat ++ rest).drop 4 = rest := List.drop_left' hLength
      rw [List.cons_append, List.cons_append, character?, if_neg (by simp [hLength]), hTake, hDrop, hCode,
        Char.ofNat_toNat]
      rfl
    · next hControl =>
      rw [List.singleton_append, character?]
      · rw [if_neg]
        rintro (hEq | hLow)
        · exact hQuote hEq
        · exact hControl hLow
      · rintro s rfl
        exact absurd rfl hBackslash
      · rintro d s rfl
        exact absurd rfl hBackslash

theorem unquote?_escape (s rest : List Char) : unquote? (s.flatMap escapeChar ++ '"' :: rest) = some (s, rest) := by
  induction s with
  | nil => rw [List.flatMap_nil, List.nil_append, unquote?]
  | cons c s ih =>
    have hFirst := character?_escapeChar c (s.flatMap escapeChar ++ '"' :: rest)
    rw [List.flatMap_cons, List.append_assoc, unquote?]
    · split
      · next hSome =>
        rw [hFirst] at hSome
        cases hSome
        rw [ih]
        rfl
      · next hNone =>
        rw [hFirst] at hNone
        cases hNone
    · intro t hText
      rw [hText] at hFirst
      simp [character?] at hFirst

/-! ## Lexemes -/

theorem length_of_unquote? {s inside rest : List Char} (h : unquote? s = some (inside, rest)) :
    rest.length < s.length := by
  fun_induction unquote? s generalizing inside rest with
  | case1 s =>
    cases h
    simp
  | case2 s hQuote c next hNext ih =>
    obtain ⟨read, hRead, hEq⟩ := Option.map_eq_some_iff.mp h
    cases hEq
    have hShorter := length_of_character? hNext
    have hRest := ih hRead
    omega
  | case3 => cases h

/-- The lexemes of a document, if all its quotes are closed. -/
def lexemes? : List Char → Option (List Lexeme)
  | [] => some []
  | c :: s =>
    if isSpace c then lexemes? s
    else if isMark c then (lexemes? s).map (.mark c :: ·)
    else if c = '"' then
      match _h : unquote? s with
      | some (inside, rest) => (lexemes? rest).map (.text (String.ofList inside) :: ·)
      | none => none
    else (lexemes? (s.dropWhile isWordChar)).map (.word (String.ofList (c :: s.takeWhile isWordChar)) :: ·)
termination_by s => s.length
decreasing_by
  · simp
  · simp
  · have := length_of_unquote? _h
    simp only [List.length_cons]
    omega
  · have := (List.dropWhile_suffix (l := s) isWordChar).length_le
    simp only [List.length_cons]
    omega

theorem lexemes?_spaces {s : List Char} (h : ∀ c ∈ s, isSpace c = true) (rest : List Char) :
    lexemes? (s ++ rest) = lexemes? rest := by
  induction s with
  | nil => rfl
  | cons c s ih =>
    obtain ⟨hc, hs⟩ := List.forall_mem_cons.mp h
    rw [List.cons_append, lexemes?, if_pos hc, ih hs]

theorem lexemes?_mark {c : Char} (h : isMark c = true) (rest : List Char) :
    lexemes? (c :: rest) = (lexemes? rest).map (.mark c :: ·) := by
  have hMarks : ("[]\x7b\x7d,:".toList.all fun d => !isSpace d) = true := by decide
  have hSpace := List.all_eq_true.mp hMarks c (List.contains_iff_mem.mp h)
  rw [lexemes?, if_neg (by simpa using hSpace), if_pos h]

theorem lexemes?_quote (s : String) (rest : List Char) :
    lexemes? ((quote s).toList ++ rest) = (lexemes? rest).map (.text s :: ·) := by
  have hRead := unquote?_escape s.toList rest
  have hText : (quote s).toList ++ rest = '"' :: (s.toList.flatMap escapeChar ++ '"' :: rest) := by simp [quote]
  rw [hText, lexemes?, if_neg (by decide), if_neg (by decide), if_pos rfl]
  split
  · next hSome =>
    rw [hRead] at hSome
    cases hSome
    rw [String.ofList_toList]
  · next hNone =>
    rw [hRead] at hNone
    cases hNone

/-- A word ends where another character follows. -/
theorem lexemes?_word {s : String} (hNonempty : s ≠ "") (hWord : ∀ c ∈ s.toList, isWordChar c = true)
    {rest : List Char} (hRest : ∀ c ∈ rest.head?, isWordChar c = false) :
    lexemes? (s.toList ++ rest) = (lexemes? rest).map (.word s :: ·) := by
  cases hText : s.toList with
  | nil => exact absurd (String.toList_eq_nil_iff.mp hText) hNonempty
  | cons c t =>
    rw [hText] at hWord
    obtain ⟨hc, ht⟩ := List.forall_mem_cons.mp hWord
    simp only [isWordChar, Bool.and_eq_true, Bool.not_eq_true', bne_iff_ne, ne_eq] at hc
    rw [List.cons_append, lexemes?, if_neg (by simp [hc.1.1]), if_neg (by simp [hc.1.2]), if_neg hc.2,
      takeWhile_append ht hRest, dropWhile_append ht hRest, ← hText, String.ofList_toList]

end ScenarioRunner.Report.Json
