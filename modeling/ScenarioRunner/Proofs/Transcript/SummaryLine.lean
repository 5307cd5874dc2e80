import ScenarioRunner.Proofs.Text.Plain
import ScenarioRunner.Proofs.Transcript.CountPhrase
import ScenarioRunner.Proofs.Transcript.Duration
import ScenarioRunner.Proofs.Transcript.Tally
import ScenarioRunner.Transcript.Reader

/-!
# The lines of a summary

A summary is a line that counts the scenarios, one that counts the steps, and the duration. Such lines are plain, and
what they say is read back from them, also when further lines follow.
-/

namespace ScenarioRunner.Transcript

open ScenarioRunner.Text

set_option autoImplicit false

/-! ## Plain lines -/

structure PlainLine (line : List Char) : Prop where
  escape_notMem : '\x1b' ∉ line
  isZeroWidth_eq_false : ∀ c ∈ line, isZeroWidth c = false
  feed_notMem : '\n' ∉ line
  isBlank_head : ∀ c ∈ line.head?, isBlank c = false
  isBlank_last : ∀ c ∈ line.getLast?, isBlank c = false

theorem PlainLine.trim_eq {line : List Char} (h : PlainLine line) : trim line = line :=
  trim_eq_self h.isBlank_head h.isBlank_last

theorem PlainLine.cleanLine_eq {line : List Char} (h : PlainLine line) : cleanLine line = line := by
  rw [cleanLine, stripCodes_of_plain h.escape_notMem h.isZeroWidth_eq_false]
  apply dropTrailing_eq_self
  intro c hc
  have hBlank := h.isBlank_last c hc
  rw [beq_eq_false_iff_ne]
  rintro rfl
  exact absurd hBlank (by decide)

def isCountChar (c : Char) : Bool :=
  isDigit c || isLowerLetter c || [' ', ',', '(', ')'].contains c

def isSummaryChar (c : Char) : Bool :=
  isCountChar c || ['.', ':'].contains c

theorem toNat_of_isLowerLetter {c : Char} (h : isLowerLetter c = true) : 97 ≤ c.toNat ∧ c.toNat ≤ 122 := by
  simpa [isLowerLetter, Char.le_def, UInt32.le_iff_toNat_le] using h

theorem not_special_of_toNat {c : Char} (hLow : 48 ≤ c.toNat) (hWidth : isZeroWidth c = false) :
    c ≠ '\x1b' ∧ isZeroWidth c = false ∧ c ≠ '\n' := by
  refine ⟨?_, hWidth, ?_⟩
  · rintro rfl
    exact absurd hLow (by decide)
  · rintro rfl
    exact absurd hLow (by decide)

theorem not_special_of_isSummaryChar {c : Char} (h : isSummaryChar c = true) :
    c ≠ '\x1b' ∧ isZeroWidth c = false ∧ c ≠ '\n' := by
  simp only [isSummaryChar, isCountChar, Bool.or_eq_true, List.contains_eq_mem, decide_eq_true_eq] at h
  rcases h with ((hDigit | hLetter) | hMark) | hMark
  · have := toNat_of_isDigit hDigit
    exact not_special_of_toNat (by omega) (isZeroWidth_of_isDigit hDigit)
  · have := toNat_of_isLowerLetter hLetter
    apply not_special_of_toNat (by omega)
    simp only [isZeroWidth, Bool.or_eq_false_iff, Bool.and_eq_false_iff, decide_eq_false_iff_not, beq_eq_false_iff_ne]
    omega
  · simp only [List.mem_cons, List.not_mem_nil, or_false] at hMark
    rcases hMark with rfl | rfl | rfl | rfl
    · decide
    · decide
    · decide
    · decide
  · simp only [List.mem_cons, List.not_mem_nil, or_false] at hMark
    rcases hMark with rfl | rfl
    · decide
    · decide

theorem plainLine_of_summaryChars {line : List Char} (h : ∀ c ∈ line, isSummaryChar c = true)
    (hHead : ∀ c ∈ line.head?, isDigit c = true) (hLast : ∀ c ∈ line.getLast?, isBlank c = false) :
    PlainLine line where
  escape_notMem hMem := (not_special_of_isSummaryChar (h _ hMem)).1 rfl
  isZeroWidth_eq_false c hc := (not_special_of_isSummaryChar (h c hc)).2.1
  feed_notMem hMem := (not_special_of_isSummaryChar (h _ hMem)).2.2 rfl
  isBlank_head c hc := isBlank_of_isDigit (hHead c hc)
  isBlank_last := hLast

/-! ## Count lines -/

structure Share.WellFormed (s : Share) : Prop where
  word_ne_nil : s.word.toList ≠ []
  isLowerLetter_word : ∀ c ∈ s.word.toList, isLowerLetter c = true

def Share.entry (s : Share) : Entry :=
  ⟨Nat.toDigits 10 s.number, s.word.toList⟩

/-- A line that is a written phrase. Without entries it is the phrase that counts nothing. -/
structure PhraseLine (noun : String) (p : CountPhrase) (line : List Char) : Prop where
  wellFormed : p.WellFormed
  eq_text : ∃ plural, line = CountPhrase.text noun plural p ∧ (p.breakdown = none → plural = true ∧ p.numeral = ['0'])

/-- A line that counts some shares and lists them. Where there are none, the parentheses may be missing. -/
inductive CountLine (noun : String) (shares : List Share) : List Char → Prop where
  | listed (plural : Bool) : CountLine noun shares
      (CountPhrase.text noun plural ⟨Nat.toDigits 10 (total shares), some (shares.map Share.entry)⟩)
  | empty (h : shares = []) : CountLine noun shares (CountPhrase.text noun true ⟨['0'], none⟩)

structure Counts (shares : List Share) (p : CountPhrase) : Prop where
  numeral_eq : p.numeral = Nat.toDigits 10 (total shares)
  entries_eq : p.breakdown.getD [] = shares.map Share.entry

theorem Share.wellFormed_entry {s : Share} (h : s.WellFormed) : s.entry.WellFormed where
  numeral_ne_nil := Nat.toDigits_ne_nil
  isDigit_numeral _ hc := isDigit_of_mem_toDigits hc
  word_ne_nil := h.word_ne_nil
  isLowerLetter_word := h.isLowerLetter_word

theorem CountLine.exists_phrase {noun : String} {shares : List Share} {line : List Char}
    (h : CountLine noun shares line) (hShares : ∀ s ∈ shares, s.WellFormed) :
    ∃ p, PhraseLine noun p line ∧ Counts shares p := by
  have hEntries : ∀ e ∈ shares.map Share.entry, e.WellFormed := by
    intro e he
    obtain ⟨s, hs, rfl⟩ := List.mem_map.mp he
    exact Share.wellFormed_entry (hShares s hs)
  cases h with
  | listed plural =>
    have hPhrase : CountPhrase.WellFormed ⟨Nat.toDigits 10 (total shares), some (shares.map Share.entry)⟩ :=
      ⟨Nat.toDigits_ne_nil, fun c hc => isDigit_of_mem_toDigits hc, hEntries⟩
    exact ⟨_, ⟨hPhrase, plural, rfl, fun hNone => absurd hNone (Option.some_ne_none _)⟩, rfl, rfl⟩
  | empty hEmpty =>
    subst hEmpty
    have hPhrase : CountPhrase.WellFormed ⟨['0'], none⟩ := ⟨by simp, List.all_eq_true.mp (by decide), by simp⟩
    exact ⟨_, ⟨hPhrase, true, rfl, fun _ => ⟨rfl, rfl⟩⟩, rfl, rfl⟩

theorem Counts.total_eq {shares : List Share} {p : CountPhrase} (h : Counts shares p)
    (hLimit : total shares < Nat.pow 10 Decimal.numeralLimit) : p.total = .ok (total shares) := by
  rw [CountPhrase.total, h.numeral_eq, readNumeral_toDigits hLimit]

theorem ofEntries_map_entry {shares : List Share} (h : ∀ s ∈ shares, s.number < Nat.pow 10 Decimal.numeralLimit) :
    Tally.ofEntries (shares.map Share.entry) = .ok (tallyOf shares) := by
  rw [Tally.ofEntries, tallyOf]
  generalize ([] : Tally) = start
  induction shares generalizing start with
  | nil => rfl
  | cons s shares ih =>
    have hRead := readNumeral_toDigits (h s List.mem_cons_self)
    rw [List.map_cons, List.foldlM_cons, List.foldl_cons,
      ← ih (fun other hOther => h other (List.mem_cons_of_mem _ hOther))]
    simp only [Share.entry, hRead, String.ofList_toList]
    rfl

theorem Counts.tally_eq {shares : List Share} {p : CountPhrase} (h : Counts shares p)
    (hLimit : total shares < Nat.pow 10 Decimal.numeralLimit) : p.tally = .ok (tallyOf shares) := by
  rw [CountPhrase.tally, h.entries_eq]
  exact ofEntries_map_entry fun s hs => Nat.lt_of_le_of_lt (number_le_total hs) hLimit

/-! ## What count lines are made of -/

theorem isCountChar_of_isDigit {c : Char} (h : isDigit c = true) : isCountChar c = true := by
  simp [isCountChar, h]

theorem isCountChar_of_isLowerLetter {c : Char} (h : isLowerLetter c = true) : isCountChar c = true := by
  simp [isCountChar, h]

theorem isCountChar_of_mem_breakdownText {breakdown : Option (List Entry)}
    (h : ∀ e ∈ breakdown.getD [], e.WellFormed) {c : Char} (hc : c ∈ breakdownText breakdown) :
    isCountChar c = true := by
  cases breakdown with
  | none => cases hc
  | some entries =>
    simp only [breakdownText, List.mem_cons, List.mem_append, List.not_mem_nil, or_false] at hc
    rcases hc with rfl | rfl | hc | rfl
    · decide
    · decide
    · rcases mem_entriesText h hc with hDigit | hLetter | rfl | rfl
      · exact isCountChar_of_isDigit hDigit
      · exact isCountChar_of_isLowerLetter hLetter
      · decide
      · decide
    · decide

theorem isCountChar_of_mem_text {noun : String} (hNoun : ∀ c ∈ noun.toList, isLowerLetter c = true) {p : CountPhrase}
    (h : p.WellFormed) (plural : Bool) {c : Char} (hc : c ∈ CountPhrase.text noun plural p) :
    isCountChar c = true := by
  simp only [CountPhrase.text, List.mem_append, List.mem_cons] at hc
  rcases hc with (hNumeral | rfl | hLetter | hPlural) | hBreakdown
  · exact isCountChar_of_isDigit (h.isDigit_numeral c hNumeral)
  · decide
  · exact isCountChar_of_isLowerLetter (hNoun c hLetter)
  · cases plural with
    | true =>
      obtain rfl := List.mem_singleton.mp hPlural
      decide
    | false => cases hPlural
  · exact isCountChar_of_mem_breakdownText h.entries hBreakdown

theorem isBlank_last_text (noun : String) (plural : Bool) (p : CountPhrase)
    (hEnd : p.breakdown = none → plural = true) :
    ∀ c ∈ (CountPhrase.text noun plural p).getLast?, isBlank c = false := by
  obtain ⟨numeral, breakdown⟩ := p
  intro c hc
  cases breakdown with
  | none =>
    obtain rfl := hEnd rfl
    have hText : CountPhrase.text noun true ⟨numeral, none⟩ = numeral ++ ' ' :: noun.toList ++ ['s'] := by
      simp [CountPhrase.text, breakdownText]
    rw [hText, List.getLast?_concat] at hc
    cases hc
    decide
  | some entries =>
    have hText : CountPhrase.text noun plural ⟨numeral, some entries⟩ =
        numeral ++ ' ' :: (noun.toList ++ (if plural then ['s'] else [])) ++ ' ' :: '(' :: entriesText entries ++ [')'] := by
      simp [CountPhrase.text, breakdownText]
    rw [hText, List.getLast?_concat] at hc
    cases hc
    decide

theorem isDigit_head_text (noun : String) (plural : Bool) {p : CountPhrase} (h : p.WellFormed) (rest : List Char) :
    ∀ c ∈ (CountPhrase.text noun plural p ++ rest).head?, isDigit c = true := by
  rw [CountPhrase.text, List.append_assoc, List.append_assoc]
  exact isDigit_head_append h.numeral_ne_nil h.isDigit_numeral _

/-- Phrase lines are plain, and have no colon that a duration could be read from. -/
theorem PhraseLine.plain {noun : String} (hNoun : ∀ c ∈ noun.toList, isLowerLetter c = true) {p : CountPhrase}
    {line : List Char} (h : PhraseLine noun p line) : PlainLine line ∧ ':' ∉ line := by
  obtain ⟨hPhrase, plural, rfl, hBare⟩ := h
  have hChars : ∀ c ∈ CountPhrase.text noun plural p, isCountChar c = true := fun c hc =>
    isCountChar_of_mem_text hNoun hPhrase plural hc
  constructor
  · apply plainLine_of_summaryChars
    · intro c hc
      simp [isSummaryChar, hChars c hc]
    · have hHead := isDigit_head_text noun plural hPhrase []
      rwa [List.append_nil] at hHead
    · exact isBlank_last_text noun plural p fun hNone => (hBare hNone).1
  · intro hMem
    exact absurd (hChars ':' hMem) (by decide)

/-! ## The duration line -/

theorem isSummaryChar_of_mem_timeText {d : Duration} (h : d.WellFormed) {c : Char} (hc : c ∈ d.timeText) :
    isSummaryChar c = true := by
  have hDigit : isDigit c = true → isSummaryChar c = true := fun hc => by simp [isSummaryChar, isCountChar, hc]
  simp only [Duration.timeText, fractionText, List.mem_append, List.mem_cons] at hc
  rcases hc with hMinutes | rfl | hSeconds | hFraction
  · exact hDigit (h.isDigit_minutes c hMinutes)
  · decide
  · exact hDigit (h.isDigit_seconds c hSeconds)
  · split_ifs at hFraction
    · cases hFraction
    · rcases List.mem_cons.mp hFraction with rfl | hFraction
      · decide
      · exact hDigit (h.isDigit_fraction c hFraction)

theorem isSummaryChar_of_mem_durationText {run steps : Duration} (hRun : run.WellFormed) (hSteps : steps.WellFormed)
    {c : Char} (hc : c ∈ durationText run steps) : isSummaryChar c = true := by
  have hWords : ∀ c ∈ "s (executing steps: ".toList, isSummaryChar c = true := List.all_eq_true.mp (by decide)
  have hClose : ∀ c ∈ "s)".toList, isSummaryChar c = true := List.all_eq_true.mp (by decide)
  rw [durationText, List.mem_append, List.mem_append, List.mem_append] at hc
  rcases hc with hc | hc | hc | hc
  · exact isSummaryChar_of_mem_timeText hRun hc
  · exact hWords c hc
  · exact isSummaryChar_of_mem_timeText hSteps hc
  · exact hClose c hc

theorem isDigit_head_durationText {run : Duration} (hRun : run.WellFormed) (steps : Duration) :
    ∀ c ∈ (durationText run steps).head?, isDigit c = true := by
  rw [durationText, Duration.timeText, List.append_assoc]
  exact isDigit_head_append hRun.minutes_ne_nil hRun.isDigit_minutes _

theorem durationText_eq_concat (run steps : Duration) : ∃ lead, durationText run steps = lead ++ [')'] :=
  ⟨run.timeText ++ ("s (executing steps: ".toList ++ (steps.timeText ++ ['s'])), by simp [durationText]⟩

theorem isBlank_last_durationText (lead : List Char) (run steps : Duration) :
    ∀ c ∈ (lead ++ durationText run steps).getLast?, isBlank c = false := by
  intro c hc
  obtain ⟨start, hText⟩ := durationText_eq_concat run steps
  rw [hText, ← List.append_assoc, List.getLast?_concat] at hc
  cases hc
  decide

theorem plainLine_durationText {run steps : Duration} (hRun : run.WellFormed) (hSteps : steps.WellFormed) :
    PlainLine (durationText run steps) :=
  plainLine_of_summaryChars (fun _ hc => isSummaryChar_of_mem_durationText hRun hSteps hc)
    (isDigit_head_durationText hRun steps) (isBlank_last_durationText [] run steps)

end ScenarioRunner.Transcript
