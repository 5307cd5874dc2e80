import ScenarioRunner.Proofs.Report.Lexemes

/-!
# Reading a document back

A document is read one lexeme at a time, with the collections that are still open around it. Main statement: a document
that was written to its end is read as the data it was written from.
-/

namespace ScenarioRunner.Report.Json

open ScenarioRunner.Calendar
open ScenarioRunner.Text

set_option autoImplicit false

/-- What is neither text nor a collection is kept as it is written. -/
inductive Item where
  | word (s : String)
  | text (s : String)
  | list (items : List Item)
  | object (members : List (String × Item))

/-- A collection that has been opened, with what it holds so far. An object has the name of its next member as well. -/
inductive Frame where
  | list (items : List Item)
  | object (members : List (String × Item)) (name : String)

/-- What comes next, with the open collections around it from the inside out. -/
inductive State where
  | value (around : List Frame)
  /-- A list has been opened and may be empty. -/
  | first (around : List Frame)
  /-- An object has been opened and may be empty. -/
  | firstMember (around : List Frame)
  | member (members : List (String × Item)) (around : List Frame)
  | colon (members : List (String × Item)) (name : String) (around : List Frame)
  | done (item : Item) (around : List Frame)

def State.begin (around : List Frame) : Lexeme → Option State
  | .word s => some (.done (.word s) around)
  | .text s => some (.done (.text s) around)
  | .mark '[' => some (.first around)
  | .mark '\x7b' => some (.firstMember around)
  | .mark _ => none

def State.step : State → Lexeme → Option State
  | .value around, l => State.begin around l
  | .first around, .mark ']' => some (.done (.list []) around)
  | .first around, l => State.begin (.list [] :: around) l
  | .firstMember around, .mark '\x7d' => some (.done (.object []) around)
  | .firstMember around, .text s => some (.colon [] s around)
  | .member members around, .text s => some (.colon members s around)
  | .colon members name around, .mark ':' => some (.value (.object members name :: around))
  | .done item (.list items :: around), .mark ',' => some (.value (.list (items ++ [item]) :: around))
  | .done item (.list items :: around), .mark ']' => some (.done (.list (items ++ [item])) around)
  | .done item (.object members name :: around), .mark ',' => some (.member (members ++ [(name, item)]) around)
  | .done item (.object members name :: around), .mark '\x7d' =>
    some (.done (.object (members ++ [(name, item)])) around)
  | _, _ => none

def State.item? : State → Option Item
  | .done item [] => some item
  | _ => none

def read? (document : String) : Option Item := do
  let lexemes ← lexemes? document.toList
  let last ← lexemes.foldlM State.step (.value [])
  last.item?

/-! ## Data and their lexemes -/

mutual

def Data.item : Data → Item
  | .null => .word "null"
  | .bool b => .word (if b then "true" else "false")
  | .int n => .word (toString n)
  | .float x => .word (floatText x)
  | .text s => .text s
  | .list items => .list (itemsOf items)
  | .object members => .object (membersOf members)

def itemsOf : List Data → List Item
  | [] => []
  | d :: rest => d.item :: itemsOf rest

def membersOf : List (String × Data) → List (String × Item)
  | [] => []
  | (name, d) :: rest => (name, d.item) :: membersOf rest

end

def separated : List (List Lexeme) → List Lexeme
  | [] => []
  | row :: rest => row ++ rest.flatMap (.mark ',' :: ·)

mutual

def Data.lexemes : Data → List Lexeme
  | .null => [.word "null"]
  | .bool b => [.word (if b then "true" else "false")]
  | .int n => [.word (toString n)]
  | .float x => [.word (floatText x)]
  | .text s => [.text s]
  | .list items => .mark '[' :: (separated (itemRows items) ++ [.mark ']'])
  | .object members => .mark '\x7b' :: (separated (memberRows members) ++ [.mark '\x7d'])

def itemRows : List Data → List (List Lexeme)
  | [] => []
  | d :: rest => d.lexemes :: itemRows rest

def memberRows : List (String × Data) → List (List Lexeme)
  | [] => []
  | (name, d) :: rest => (.text name :: .mark ':' :: d.lexemes) :: memberRows rest

end

/-! ## From lexemes to items -/

/-- No value begins with the bracket that closes a list. -/
theorem foldlM_lexemes_first (d : Data) (around : List Frame) (rest : List Lexeme) :
    (d.lexemes ++ rest).foldlM State.step (.first around) =
      (d.lexemes ++ rest).foldlM State.step (.value (.list [] :: around)) := by
  cases d <;> rfl

mutual

/-- Where a value may come, the lexemes of data are read as one item. -/
theorem Data.foldlM_lexemes (d : Data) (around : List Frame) (rest : List Lexeme) :
    (d.lexemes ++ rest).foldlM State.step (.value around) = rest.foldlM State.step (.done d.item around) := by
  match d with
  | .null => rfl
  | .bool _ => rfl
  | .int _ => rfl
  | .float _ => rfl
  | .text _ => rfl
  | .list [] => rfl
  | .list (first :: items) =>
    have hItems := foldlM_itemRows items [] first.item around rest
    rw [← first.foldlM_lexemes, ← foldlM_lexemes_first] at hItems
    rw [Data.lexemes, itemRows, separated, List.cons_append, List.append_assoc, List.append_assoc,
      List.singleton_append]
    exact hItems
  | .object [] => rfl
  | .object ((name, first) :: members) =>
    have hMembers := foldlM_memberRows members [] name first.item around rest
    rw [← first.foldlM_lexemes] at hMembers
    rw [Data.lexemes, memberRows, separated, List.cons_append, List.append_assoc, List.append_assoc,
      List.singleton_append]
    exact hMembers

theorem foldlM_itemRows (items : List Data) (before : List Item) (item : Item) (around : List Frame)
    (rest : List Lexeme) :
    ((itemRows items).flatMap (.mark ',' :: ·) ++ .mark ']' :: rest).foldlM State.step
        (.done item (.list before :: around)) =
      rest.foldlM State.step (.done (.list (before ++ item :: itemsOf items)) around) := by
  match items with
  | [] => rfl
  | d :: items =>
    have hItems := foldlM_itemRows items (before ++ [item]) d.item around rest
    rw [← d.foldlM_lexemes, List.append_assoc, List.singleton_append] at hItems
    rw [itemRows, List.flatMap_cons, List.append_assoc]
    exact hItems

theorem foldlM_memberRows (members : List (String × Data)) (before : List (String × Item)) (name : String)
    (item : Item) (around : List Frame) (rest : List Lexeme) :
    ((memberRows members).flatMap (.mark ',' :: ·) ++ .mark '\x7d' :: rest).foldlM State.step
        (.done item (.object before name :: around)) =
      rest.foldlM State.step (.done (.object (before ++ (name, item) :: membersOf members)) around) := by
  match members with
  | [] => rfl
  | (next, d) :: members =>
    have hMembers := foldlM_memberRows members (before ++ [(name, item)]) next d.item around rest
    rw [← d.foldlM_lexemes, List.append_assoc, List.singleton_append] at hMembers
    rw [memberRows, List.flatMap_cons, List.append_assoc]
    exact hMembers

end

/-! ## Words -/

def isNumberChar (c : Char) : Bool :=
  c.isDigit || "+-.einfa".toList.contains c

theorem isWordChar_of_isNumberChar {c : Char} (h : isNumberChar c = true) : isWordChar c = true := by
  have hOthers : ((" \n\t\r".toList ++ "[]\x7b\x7d,:".toList ++ ['"']).all fun d => !isNumberChar d) = true := by decide
  have hNone : c ∉ " \n\t\r".toList ++ "[]\x7b\x7d,:".toList ++ ['"'] := by
    intro hMem
    simpa [h] using List.all_eq_true.mp hOthers c hMem
  simp only [List.mem_append, List.mem_singleton, not_or] at hNone
  simpa [isWordChar, isSpace, isMark, and_assoc] using hNone

theorem isNumberChar_of_mem_toDigits {n : Nat} {c : Char} (h : c ∈ Nat.toDigits 10 n) : isNumberChar c = true := by
  rw [isNumberChar, Nat.isDigit_of_mem_toDigits (by decide) (by decide) h]
  rfl

theorem isNumberChar_positional {digits : List Char} (h : ∀ c ∈ digits, isNumberChar c = true) (point : Int) :
    ∀ c ∈ Decimal.positional digits point, isNumberChar c = true := by
  have hZeros : ∀ n, ∀ c ∈ List.replicate n '0', isNumberChar c = true := by
    intro n c hc
    rw [List.eq_of_mem_replicate hc]
    rfl
  unfold Decimal.positional
  split
  · simp only [List.cons_append, List.forall_mem_cons, List.forall_mem_append]
    exact ⟨rfl, rfl, hZeros _, h⟩
  · simp only [List.forall_mem_append, List.forall_mem_cons]
    refine ⟨⟨fun c hc => h c (List.mem_of_mem_take hc), hZeros _⟩, rfl, ?_⟩
    split
    · exact hZeros 1
    · exact fun c hc => h c (List.mem_of_mem_drop hc)

theorem isNumberChar_exponential {digits : List Char} (h : ∀ c ∈ digits, isNumberChar c = true) (exponent : Int) :
    ∀ c ∈ Decimal.exponential digits exponent, isNumberChar c = true := by
  have hSize : ∀ c ∈ Nat.toDigits 10 exponent.natAbs, isNumberChar c = true := fun c => isNumberChar_of_mem_toDigits
  unfold Decimal.exponential
  simp only [List.forall_mem_append, List.forall_mem_cons]
  refine ⟨⟨fun c hc => h c (List.mem_of_mem_take hc), ?_⟩, rfl, ?_, ?_⟩
  · split
    · simp
    · exact List.forall_mem_cons.mpr ⟨rfl, fun c hc => h c (List.mem_of_mem_drop hc)⟩
  · split <;> rfl
  · split
    · exact List.forall_mem_cons.mpr ⟨rfl, hSize⟩
    · exact hSize

theorem isNumberChar_textOfMagnitude (m : Decimal.Magnitude) :
    ∀ c ∈ Decimal.textOfMagnitude m, isNumberChar c = true := by
  unfold Decimal.textOfMagnitude
  split
  · exact List.all_eq_true.mp (by decide)
  · exact List.all_eq_true.mp (by decide)
  · exact List.all_eq_true.mp (by decide)
  · next mantissa exponent _ =>
    have hDigits : ∀ c ∈ (Decimal.shortest mantissa exponent).significant.1, isNumberChar c = true := by
      intro c hc
      exact isNumberChar_of_mem_toDigits
        (List.mem_reverse.mp ((List.dropWhile_suffix _).subset (List.mem_reverse.mp hc)))
    dsimp only
    split
    · exact isNumberChar_positional hDigits _
    · exact isNumberChar_exponential hDigits _

theorem textOfMagnitude_ne_nil (m : Decimal.Magnitude) : Decimal.textOfMagnitude m ≠ [] := by
  unfold Decimal.textOfMagnitude
  split
  · decide
  · decide
  · decide
  · dsimp only
    split
    · unfold Decimal.positional
      split <;> simp
    · simp [Decimal.exponential]

/-! ## From texts to lexemes -/

/-- A text that is read as these lexemes, if no word goes on behind it. -/
def Reads (s : String) (ls : List Lexeme) : Prop :=
  ∀ rest : List Char, (∀ c ∈ rest.head?, isWordChar c = false) →
    lexemes? (s.toList ++ rest) = (lexemes? rest).map (ls ++ ·)

theorem reads_word {s : String} (hNonempty : s ≠ "") (hWord : s.toList.all isWordChar = true) :
    Reads s [.word s] := by
  intro rest hRest
  exact lexemes?_word hNonempty (List.all_eq_true.mp hWord) hRest

theorem reads_number {s : String} (hNonempty : s.toList ≠ []) (hNumber : ∀ c ∈ s.toList, isNumberChar c = true) :
    Reads s [.word s] := by
  apply reads_word
  · rintro rfl
    exact hNonempty rfl
  · exact List.all_eq_true.mpr fun c hc => isWordChar_of_isNumberChar (hNumber c hc)

theorem toList_toString_ofNat (n : Nat) : (toString (Int.ofNat n)).toList = Nat.toDigits 10 n :=
  Nat.toList_repr

theorem toList_toString_negSucc (n : Nat) : (toString (Int.negSucc n)).toList = '-' :: Nat.toDigits 10 (n + 1) := by
  have hDigits : (toString (n + 1)).toList = Nat.toDigits 10 (n + 1) := Nat.toList_repr
  rw [← hDigits]
  exact String.toList_append

theorem reads_int (n : Int) : Reads (toString n) [.word (toString n)] := by
  have hNumber (n : Nat) : ∀ c ∈ Nat.toDigits 10 n, isNumberChar c = true := fun c => isNumberChar_of_mem_toDigits
  cases n with
  | ofNat n =>
    apply reads_number
    · rw [toList_toString_ofNat]
      exact Nat.toDigits_ne_nil
    · rw [toList_toString_ofNat]
      exact hNumber n
  | negSucc n =>
    apply reads_number
    · rw [toList_toString_negSucc]
      exact List.cons_ne_nil _ _
    · rw [toList_toString_negSucc]
      exact List.forall_mem_cons.mpr ⟨rfl, hNumber (n + 1)⟩

theorem isNumberChar_text (x : Float) : ∀ c ∈ (Decimal.text x).toList, isNumberChar c = true := by
  rw [Decimal.text, String.toList_ofList, List.forall_mem_append]
  refine ⟨?_, isNumberChar_textOfMagnitude _⟩
  split <;> simp [isNumberChar]

theorem reads_floatText (x : Float) : Reads (floatText x) [.word (floatText x)] := by
  unfold floatText
  split
  · split <;> exact reads_word (by decide) (by decide)
  · exact reads_word (by decide) (by decide)
  · apply reads_number
    · simp [Decimal.text, textOfMagnitude_ne_nil]
    · exact isNumberChar_text x

theorem reads_quote (s : String) : Reads (quote s) [.text s] := by
  intro rest _
  exact lexemes?_quote s rest

/-- Blanks do not go on with a word. -/
theorem isWordChar_newline (level : Nat) (rest : List Char) :
    ∀ c ∈ ((newline level).toList ++ rest).head?, isWordChar c = false := by
  intro c hc
  rw [newline, String.toList_append] at hc
  cases hc
  rfl

theorem lexemes?_newline (level : Nat) (rest : List Char) :
    lexemes? ((newline level).toList ++ rest) = lexemes? rest := by
  apply lexemes?_spaces
  intro c hc
  simp only [newline, String.toList_append, String.toList_ofList, List.mem_append, List.mem_replicate] at hc
  obtain hc | ⟨-, rfl⟩ := hc
  · rw [List.mem_singleton.mp hc]
    rfl
  · rfl

def later (level : Nat) (texts : List String) : List Char :=
  texts.flatMap fun t => ',' :: ((newline level).toList ++ t.toList)

theorem isWordChar_later {level : Nat} {texts : List String} {rest : List Char}
    (hRest : ∀ c ∈ rest.head?, isWordChar c = false) :
    ∀ c ∈ (later level texts ++ rest).head?, isWordChar c = false := by
  cases texts with
  | nil => exact hRest
  | cons t texts => exact head_cons rfl _

theorem lexemes?_later {level : Nat} {texts : List String} {rows : List (List Lexeme)}
    (h : List.Forall₂ Reads texts rows) {rest : List Char} (hRest : ∀ c ∈ rest.head?, isWordChar c = false) :
    lexemes? (later level texts ++ rest) = (lexemes? rest).map (rows.flatMap (.mark ',' :: ·) ++ ·) := by
  induction h with
  | nil => simp [later]
  | @cons t row texts rows hReads _ ih =>
    have hText : later level (t :: texts) ++ rest =
        ',' :: ((newline level).toList ++ (t.toList ++ (later level texts ++ rest))) := by simp [later]
    rw [hText, lexemes?_mark (by decide), lexemes?_newline, hReads _ (isWordChar_later hRest), ih]
    simp [Function.comp_def]

/-- What is written to its end is read as these lexemes. -/
def IsReadAs (w : Writing) (ls : List Lexeme) : Prop :=
  w.fault = none → Reads w.text ls

theorem forall₂_reads {items : List Writing} {rows : List (List Lexeme)} (h : List.Forall₂ IsReadAs items rows)
    (hFaults : ∀ w ∈ items, w.fault = none) : List.Forall₂ Reads (items.map Writing.text) rows := by
  induction h with
  | nil => exact .nil
  | cons hReads _ ih =>
    obtain ⟨hFirst, hOthers⟩ := List.forall_mem_cons.mp hFaults
    exact .cons (hReads hFirst) (ih hOthers)

theorem fault_bracketed {opening closing : String} {level : Nat} {items : List Writing}
    (h : (bracketed opening closing level items).fault = none) : ∀ w ∈ items, w.fault = none := by
  cases items with
  | nil => simp
  | cons w items =>
    rw [bracketed, if_neg (by simp), Writing.fault_append_eq_none_iff, Writing.fault_append_eq_none_iff,
      Writing.join_intersperse_cons, Writing.fault_append_eq_none_iff, Writing.fault_join_eq_none_iff] at h
    obtain ⟨⟨-, hFirst, hOthers⟩, -⟩ := h
    refine List.forall_mem_cons.mpr ⟨hFirst, ?_⟩
    intro v hv
    exact ((Writing.fault_append_eq_none_iff _ v).mp (hOthers _ (List.mem_map_of_mem hv))).2

theorem text_bracketed_cons {w : Writing} {items : List Writing} (h : ∀ v ∈ w :: items, v.fault = none)
    (opening closing : String) (level : Nat) :
    (bracketed opening closing level (w :: items)).text.toList =
      opening.toList ++ ((newline (level + 1)).toList ++ (w.text.toList ++
        (later (level + 1) (items.map Writing.text) ++ ((newline level).toList ++ closing.toList)))) := by
  obtain ⟨hFirst, hOthers⟩ := List.forall_mem_cons.mp h
  have hLater : ∀ v ∈ items.map (Writing.ofText ("," ++ newline (level + 1)) ++ ·), v.fault = none := by
    intro v hv
    obtain ⟨item, hItem, rfl⟩ := List.mem_map.mp hv
    exact (Writing.fault_append_eq_none_iff _ item).mpr ⟨rfl, hOthers item hItem⟩
  rw [bracketed, if_neg (by simp), Writing.append_assoc, Writing.text_append rfl, Writing.join_intersperse_cons,
    Writing.text_append ((Writing.fault_append_eq_none_iff _ _).mpr
      ⟨hFirst, (Writing.fault_join_eq_none_iff _).mpr hLater⟩),
    Writing.text_append hFirst, Writing.text_join hLater, List.map_map]
  have hTexts : items.map (Writing.text ∘ (Writing.ofText ("," ++ newline (level + 1)) ++ ·)) =
      items.map fun v => "," ++ newline (level + 1) ++ v.text := rfl
  rw [hTexts]
  simp [later, Writing.ofText, List.flatMap_map]

/-- A collection is read as its rows, with commas between them. -/
theorem isReadAs_bracketed {opening closing : String} {o c : Char} (hOpening : opening.toList = [o])
    (hClosing : closing.toList = [c]) (hOpen : isMark o = true) (hClose : isMark c = true) (level : Nat)
    {items : List Writing} {rows : List (List Lexeme)} (h : List.Forall₂ IsReadAs items rows) :
    IsReadAs (bracketed opening closing level items) (.mark o :: (separated rows ++ [.mark c])) := by
  intro hFault rest hRest
  have hFaults := fault_bracketed hFault
  cases h with
  | nil =>
    rw [bracketed, if_pos List.isEmpty_nil, Writing.ofText, String.toList_append, hOpening, hClosing, List.append_assoc,
      List.singleton_append, List.singleton_append, lexemes?_mark hOpen, lexemes?_mark hClose, Option.map_map]
    rfl
  | @cons w row items rows hw hRows =>
    obtain ⟨hFirst, hOthers⟩ := List.forall_mem_cons.mp hFaults
    have hClosed : ∀ d ∈ ((newline level).toList ++ ([c] ++ rest)).head?, isWordChar d = false :=
      isWordChar_newline level _
    rw [text_bracketed_cons hFaults, hOpening, hClosing]
    simp only [List.append_assoc]
    rw [List.singleton_append, lexemes?_mark hOpen, lexemes?_newline, hw hFirst _ (isWordChar_later hClosed),
      lexemes?_later (forall₂_reads hRows hOthers) hClosed, lexemes?_newline, List.singleton_append,
      lexemes?_mark hClose]
    simp [separated, Function.comp_def]

mutual

theorem Data.isReadAs_render (d : Data) (level : Nat) : IsReadAs (d.render level) d.lexemes := by
  have hName : ∀ s ∈ ["null", "true", "false"], Reads s [.word s] := by
    intro s hs
    have hChars : ∀ s ∈ ["null", "true", "false"], s ≠ "" ∧ s.toList.all isWordChar = true := by decide
    exact reads_word (hChars s hs).1 (hChars s hs).2
  match d with
  | .null => exact fun _ => hName "null" (by simp)
  | .bool true => exact fun _ => hName "true" (by simp)
  | .bool false => exact fun _ => hName "false" (by simp)
  | .int n =>
    intro hFault
    rw [Data.render] at hFault ⊢
    cases hText : Decimal.writeNumber n with
    | error fault =>
      rw [hText] at hFault
      cases hFault
    | ok s =>
      rw [((Decimal.writeNumber_eq_ok_iff n s).mp hText).2]
      exact reads_int n
  | .float x => exact fun _ => reads_floatText x
  | .text s => exact fun _ => reads_quote s
  | .list items =>
    exact isReadAs_bracketed rfl rfl rfl rfl level (isReadAs_renderItems items (level + 1))
  | .object members =>
    exact isReadAs_bracketed rfl rfl rfl rfl level (isReadAs_renderMembers members (level + 1))

theorem isReadAs_renderItems (items : List Data) (level : Nat) :
    List.Forall₂ IsReadAs (renderItems level items) (itemRows items) := by
  match items with
  | [] => exact .nil
  | d :: items => exact .cons (d.isReadAs_render level) (isReadAs_renderItems items level)

theorem isReadAs_renderMembers (members : List (String × Data)) (level : Nat) :
    List.Forall₂ IsReadAs (renderMembers level members) (memberRows members) := by
  match members with
  | [] => exact .nil
  | (name, d) :: members =>
    refine .cons ?_ (isReadAs_renderMembers members level)
    intro hFault rest hRest
    have hValue := ((Writing.fault_append_eq_none_iff _ _).mp hFault).2
    have hColon (s : List Char) : lexemes? (": ".toList ++ s) = (lexemes? s).map (.mark ':' :: ·) := by
      have hText : ": ".toList ++ s = ':' :: ([' '] ++ s) := rfl
      rw [hText, lexemes?_mark (by decide), lexemes?_spaces (List.all_eq_true.mp (by decide))]
    rw [Writing.text_append rfl, Writing.ofText, String.toList_append, String.toList_append, List.append_assoc,
      List.append_assoc, lexemes?_quote, hColon, d.isReadAs_render level hValue rest hRest]
    simp [Function.comp_def]

end

/-- A document that was written to its end is read as the data it was written from. -/
theorem read?_render {d : Data} (h : (d.render 0).fault = none) : read? (d.render 0).text = some d.item := by
  have hLexemes : lexemes? (d.render 0).text.toList = some d.lexemes := by
    have hText := d.isReadAs_render 0 h [] (by simp)
    rw [List.append_nil] at hText
    rw [hText, lexemes?, Option.map_some, List.append_nil]
  have hLast : d.lexemes.foldlM State.step (.value []) = some (.done d.item []) := by
    have hSteps := d.foldlM_lexemes [] []
    rw [List.append_nil] at hSteps
    exact hSteps
  rw [read?, hLexemes, Option.bind_eq_bind, Option.bind_some, hLast]
  rfl

end ScenarioRunner.Report.Json
