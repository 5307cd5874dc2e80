import ScenarioRunner.Proofs.Transcript.SummaryBlock

/-!
# Summaries of one line

A summary can stand in one line, with its entries after colons. Main statement: from every state without a pending count
the line has the verdict of the same summary in three lines. A pending count takes the line for its own duration.
-/

namespace ScenarioRunner.Transcript

open ScenarioRunner.Text

set_option autoImplicit false

/-! ## Listed entries -/

def CountPhrase.listedText (noun : String) (plural : Bool) (p : CountPhrase) : List Char :=
  p.numeral ++ ' ' :: (noun.toList ++ (if plural then ['s'] else [])) ++ ':' :: ' ' :: entriesText (p.breakdown.getD [])

theorem Entry.readAll_of_read? {s rest : List Char} {e : Entry} (h : Entry.read? s = some (e, rest)) :
    Entry.readAll s = (e :: (Entry.readAll (skipComma rest)).1, (Entry.readAll (skipComma rest)).2) := by
  rw [Entry.readAll]
  split
  · next hNone =>
    rw [h] at hNone
    cases hNone
  · next found tail hFound =>
    rw [h] at hFound
    cases hFound
    rfl

theorem Entry.readAll_of_read?_eq_none {s : List Char} (h : Entry.read? s = none) : Entry.readAll s = ([], s) := by
  rw [Entry.readAll]
  split
  · rfl
  · next found tail hFound =>
    rw [h] at hFound
    cases hFound

theorem trimLeft_eq_self {s : List Char} (h : ∀ c ∈ s.head?, isDigit c = true) : trimLeft s = s :=
  dropWhile_eq_self fun c hc => isBlank_of_isDigit (h c hc)

theorem isDigit_head_entriesText {e : Entry} {entries : List Entry} (h : e.WellFormed) (rest : List Char) :
    ∀ c ∈ (entriesText (e :: entries) ++ rest).head?, isDigit c = true := by
  cases entries with
  | nil =>
    rw [entriesText_singleton, Entry.text, List.append_assoc]
    exact isDigit_head_append h.numeral_ne_nil h.isDigit_numeral _
  | cons next entries =>
    rw [entriesText_cons_cons, Entry.text, List.append_assoc, List.append_assoc]
    exact isDigit_head_append h.numeral_ne_nil h.isDigit_numeral _

theorem Entry.readAll_entriesText {entries : List Entry} (hNonempty : entries ≠ []) (h : ∀ e ∈ entries, e.WellFormed)
    (rest : List Char) : Entry.readAll (entriesText entries ++ ' ' :: rest) = (entries, ' ' :: rest) := by
  induction entries with
  | nil => exact absurd rfl hNonempty
  | cons e entries ih =>
    have hFirst := h e List.mem_cons_self
    cases entries with
    | nil =>
      have hRead : Entry.read? (e.text ++ ' ' :: rest) = some (e, ' ' :: rest) :=
        Entry.read?_text hFirst (head_cons (by decide) rest)
      have hEnd : Entry.readAll (skipComma (' ' :: rest)) = ([], ' ' :: rest) :=
        Entry.readAll_of_read?_eq_none (Entry.read?_eq_none (head_cons (by decide) rest))
      rw [entriesText_singleton, Entry.readAll_of_read? hRead, hEnd]
    | cons next entries =>
      have hOthers := ih (List.cons_ne_nil next entries) fun other hOther => h other (List.mem_cons_of_mem _ hOther)
      have hNext := h next (List.mem_cons_of_mem _ List.mem_cons_self)
      have hRead : Entry.read? (e.text ++ ',' :: ' ' :: (entriesText (next :: entries) ++ ' ' :: rest)) =
          some (e, ',' :: ' ' :: (entriesText (next :: entries) ++ ' ' :: rest)) :=
        Entry.read?_text hFirst (head_cons (by decide) _)
      have hSkip : skipComma (',' :: ' ' :: (entriesText (next :: entries) ++ ' ' :: rest)) =
          entriesText (next :: entries) ++ ' ' :: rest :=
        trimLeft_eq_self (isDigit_head_entriesText hNext _)
      rw [entriesText_cons_cons, List.append_assoc, List.cons_append, List.cons_append, Entry.readAll_of_read? hRead,
        hSkip, hOthers]

theorem listed?_entriesText {e : Entry} {entries : List Entry} (h : ∀ other ∈ e :: entries, other.WellFormed)
    (rest : List Char) :
    listed? (':' :: ' ' :: (entriesText (e :: entries) ++ ' ' :: rest)) = some (e :: entries, ' ' :: rest) := by
  have hTrim : trimLeft (' ' :: (entriesText (e :: entries) ++ ' ' :: rest)) =
      entriesText (e :: entries) ++ ' ' :: rest := by
    have hBlank : isBlank ' ' = true := by decide
    rw [trimLeft, List.dropWhile_cons, if_pos hBlank]
    exact trimLeft_eq_self (isDigit_head_entriesText (h e List.mem_cons_self) _)
  have hAfter : after? [':'] (':' :: ' ' :: (entriesText (e :: entries) ++ ' ' :: rest)) =
      some (' ' :: (entriesText (e :: entries) ++ ' ' :: rest)) := after?_append [':'] _
  rw [listed?, hAfter]
  simp only [Option.bind_eq_bind, Option.bind_some, hTrim, Entry.readAll_entriesText (List.cons_ne_nil e entries) h]

theorem parenthesised?_colon (rest : List Char) : parenthesised? (':' :: rest) = none := by
  have hTrim : trimLeft (':' :: rest) = ':' :: rest := dropWhile_eq_self (head_cons (by decide) rest)
  rw [parenthesised?, hTrim]
  rfl

/-- A phrase that lists its entries is read back in front of a space. -/
theorem CountPhrase.read?_listedText {noun : String} {p : CountPhrase} (h : p.WellFormed) {e : Entry}
    {entries : List Entry} (hEntries : p.breakdown = some (e :: entries)) (plural : Bool) (rest : List Char) :
    CountPhrase.read? noun (p.listedText noun plural ++ ' ' :: rest) = some (p, ' ' :: rest) := by
  obtain ⟨numeral, breakdown⟩ := p
  obtain rfl : breakdown = some (e :: entries) := hEntries
  rw [CountPhrase.listedText, List.append_assoc, List.cons_append, List.cons_append, Option.getD_some,
    CountPhrase.read?_noun h.numeral_ne_nil h.isDigit_numeral plural rfl, parenthesised?_colon,
    listed?_entriesText h.entries]
  rfl

/-! ## Skipping to the duration -/

theorem isDigit_of_isLowerLetter {c : Char} (h : isLowerLetter c = true) : isDigit c = false := by
  have hLetter := toNat_of_isLowerLetter h
  rw [Bool.eq_false_iff]
  intro hDigit
  have := toNat_of_isDigit hDigit
  omega

theorem Duration.find?_cons {c : Char} (hc : isDigit c = false) (s : List Char) :
    Duration.find? (c :: s) = Duration.find? s := by
  have hRead : Duration.read? (c :: s) = none := by
    rw [Duration.read?, Duration.readTime?, run?_eq_none (head_cons hc s)]
    rfl
  rw [Duration.find?, hRead]
  simp only [hc, Bool.false_eq_true, if_false]

theorem Duration.find?_word {word : List Char} (h : ∀ c ∈ word, isDigit c = false) (s : List Char) :
    Duration.find? (word ++ s) = Duration.find? s := by
  induction word with
  | nil => rfl
  | cons c word ih =>
    rw [List.cons_append, Duration.find?_cons (h c List.mem_cons_self),
      ih fun d hd => h d (List.mem_cons_of_mem _ hd)]

theorem Duration.find?_numeral {run : List Char} (hNonempty : run ≠ []) (hRun : ∀ c ∈ run, isDigit c = true)
    (s : List Char) : Duration.find? (run ++ ' ' :: s) = Duration.find? s := by
  cases run with
  | nil => exact absurd rfl hNonempty
  | cons c run =>
    have hSpace : isDigit ' ' = false := by decide
    have hDigits := run?_digits hNonempty hRun hSpace s
    have hRead : Duration.read? (c :: (run ++ ' ' :: s)) = none := by
      rw [Duration.read?, Duration.readTime?, ← List.cons_append, hDigits]
      rfl
    have hDrop : (run ++ ' ' :: s).dropWhile isDigit = ' ' :: s :=
      dropWhile_append (fun d hd => hRun d (List.mem_cons_of_mem _ hd)) (head_cons hSpace s)
    rw [List.cons_append, Duration.find?, hRead]
    simp only [hRun c List.mem_cons_self, if_true, hDrop]
    exact Duration.find?_cons hSpace s

theorem Duration.find?_entry {e : Entry} (h : e.WellFormed) (s : List Char) :
    Duration.find? (e.text ++ s) = Duration.find? s := by
  rw [Entry.text, List.append_assoc, List.cons_append, Duration.find?_numeral h.numeral_ne_nil h.isDigit_numeral]
  exact Duration.find?_word (fun c hc => isDigit_of_isLowerLetter (h.isLowerLetter_word c hc)) s

theorem Duration.find?_entriesText {entries : List Entry} (h : ∀ e ∈ entries, e.WellFormed) (s : List Char) :
    Duration.find? (entriesText entries ++ s) = Duration.find? s := by
  induction entries with
  | nil => rfl
  | cons e entries ih =>
    have hFirst := h e List.mem_cons_self
    cases entries with
    | nil => rw [entriesText_singleton, Duration.find?_entry hFirst]
    | cons next entries =>
      rw [entriesText_cons_cons, List.append_assoc, List.cons_append, List.cons_append, Duration.find?_entry hFirst,
        Duration.find?_cons (by decide), Duration.find?_cons (by decide),
        ih fun other hOther => h other (List.mem_cons_of_mem _ hOther)]

theorem Duration.find?_listedText {noun : String} (hNoun : ∀ c ∈ noun.toList, isLowerLetter c = true) {p : CountPhrase}
    (h : p.WellFormed) (plural : Bool) (s : List Char) :
    Duration.find? (p.listedText noun plural ++ s) = Duration.find? s := by
  have hWord : ∀ c ∈ noun.toList ++ (if plural then ['s'] else []), isDigit c = false := by
    intro c hc
    rcases List.mem_append.mp hc with hc | hc
    · exact isDigit_of_isLowerLetter (hNoun c hc)
    · cases plural with
      | true =>
        obtain rfl := List.mem_singleton.mp hc
        decide
      | false => cases hc
  rw [CountPhrase.listedText, List.append_assoc, List.append_assoc, List.cons_append,
    Duration.find?_numeral h.numeral_ne_nil h.isDigit_numeral, Duration.find?_word hWord, List.cons_append,
    List.cons_append, Duration.find?_cons (by decide), Duration.find?_cons (by decide),
    Duration.find?_entriesText h.entries]

/-! ## The two forms -/

structure PhrasedSummary where
  scenarios : CountPhrase
  steps : CountPhrase
  run : Duration
  stepTime : Duration

/-- Both phrases have entries. The numbers need not fit each other, and may be too long to be read. -/
structure PhrasedSummary.WellFormed (s : PhrasedSummary) : Prop where
  scenarios : s.scenarios.WellFormed
  steps : s.steps.WellFormed
  scenarios_listed : ∃ e entries, s.scenarios.breakdown = some (e :: entries)
  steps_listed : ∃ e entries, s.steps.breakdown = some (e :: entries)
  run : s.run.WellFormed
  stepTime : s.stepTime.WellFormed

inductive PhrasedSummary.OneLine (s : PhrasedSummary) : List Char → Prop where
  | line (scenariosPlural stepsPlural : Bool) : s.OneLine
      (s.scenarios.listedText "scenario" scenariosPlural ++
        ' ' :: (s.steps.listedText "step" stepsPlural ++ ' ' :: durationText s.run s.stepTime))

inductive PhrasedSummary.ThreeLines (s : PhrasedSummary) : List (List Char) → Prop where
  | lines (scenariosPlural stepsPlural : Bool) : s.ThreeLines
      [s.scenarios.text "scenario" scenariosPlural, s.steps.text "step" stepsPlural, durationText s.run s.stepTime]

theorem isSummaryChar_of_mem_listedText {noun : String} (hNoun : ∀ c ∈ noun.toList, isLowerLetter c = true)
    {p : CountPhrase} (h : p.WellFormed) (plural : Bool) {c : Char} (hc : c ∈ p.listedText noun plural) :
    isSummaryChar c = true := by
  have hCount : isCountChar c = true → isSummaryChar c = true := fun hc => by simp [isSummaryChar, hc]
  rw [CountPhrase.listedText, List.mem_append, List.mem_cons, List.mem_cons] at hc
  rcases hc with hPhrase | rfl | rfl | hEntries
  · apply hCount
    apply isCountChar_of_mem_text hNoun (p := ⟨p.numeral, none⟩) ⟨h.numeral_ne_nil, h.isDigit_numeral, by simp⟩ plural
    rwa [CountPhrase.text, breakdownText, List.append_nil]
  · decide
  · decide
  · rcases mem_entriesText h.entries hEntries with hDigit | hLetter | rfl | rfl
    · exact hCount (isCountChar_of_isDigit hDigit)
    · exact hCount (isCountChar_of_isLowerLetter hLetter)
    · decide
    · decide

theorem PhrasedSummary.OneLine.isDigit_head {s : PhrasedSummary} (h : s.WellFormed) {line : List Char}
    (hLine : s.OneLine line) : ∀ c ∈ line.head?, isDigit c = true := by
  obtain ⟨scenariosPlural, stepsPlural⟩ := hLine
  rw [CountPhrase.listedText, List.append_assoc, List.append_assoc]
  exact isDigit_head_append h.scenarios.numeral_ne_nil h.scenarios.isDigit_numeral _

theorem PhrasedSummary.OneLine.plain {s : PhrasedSummary} (h : s.WellFormed) {line : List Char}
    (hLine : s.OneLine line) : PlainLine line := by
  have hHead := hLine.isDigit_head h
  obtain ⟨scenariosPlural, stepsPlural⟩ := hLine
  have hSpace : isSummaryChar ' ' = true := by decide
  apply plainLine_of_summaryChars
  · intro c hc
    simp only [List.mem_append, List.mem_cons] at hc
    rcases hc with hScenarios | rfl | hSteps | rfl | hDuration
    · exact isSummaryChar_of_mem_listedText isLowerLetter_scenario h.scenarios scenariosPlural hScenarios
    · exact hSpace
    · exact isSummaryChar_of_mem_listedText isLowerLetter_step h.steps stepsPlural hSteps
    · exact hSpace
    · exact isSummaryChar_of_mem_durationText h.run h.stepTime hDuration
  · exact hHead
  · rw [List.append_cons, ← List.append_assoc, List.append_cons]
    exact isBlank_last_durationText _ s.run s.stepTime

theorem PhrasedSummary.OneLine.reading {s : PhrasedSummary} (h : s.WellFormed) {line : List Char}
    (hLine : s.OneLine line) : Says line s.run s.scenarios s.steps := by
  obtain ⟨scenariosPlural, stepsPlural⟩ := hLine
  obtain ⟨e, entries, hScenarios⟩ := h.scenarios_listed
  obtain ⟨f, others, hSteps⟩ := h.steps_listed
  have hDuration := Duration.read?_durationText h.run h.stepTime []
  rw [List.append_nil] at hDuration
  constructor
  · rw [Duration.find?_listedText isLowerLetter_scenario h.scenarios, Duration.find?_cons (by decide),
      Duration.find?_listedText isLowerLetter_step h.steps, Duration.find?_cons (by decide),
      Duration.find?_of_read? hDuration]
  · refine ⟨_, CountPhrase.read?_listedText h.scenarios hScenarios scenariosPlural _, ?_⟩
    have hFeed : '\n' ∉ s.scenarios.listedText "scenario" scenariosPlural := fun hMem =>
      (not_special_of_isSummaryChar
        (isSummaryChar_of_mem_listedText isLowerLetter_scenario h.scenarios scenariosPlural hMem)).2.2 rfl
    rw [startsLineAfter_eq_false hFeed, CountPhrase.find?]
    simp only [CountPhrase.read?_listedText h.steps hSteps, show isBlank ' ' = true by decide, Bool.false_eq_true,
      if_false, if_true, Option.none_or]

/-- Texts that say the same have the same verdict, or the same fault. -/
theorem Says.judgeSummary_eq {text other : List Char} {run : Duration} {scenarios steps : CountPhrase}
    (hText : Says text run scenarios steps) (hOther : Says other run scenarios steps) (subject : Subject)
    (failure : Option String) : judgeSummary subject failure text = judgeSummary subject failure other := by
  obtain ⟨hDuration, rest, hScenarios, hSteps⟩ := hText
  obtain ⟨hDuration', rest', hScenarios', hSteps'⟩ := hOther
  simp only [judgeSummary, readElapsed, readCounts, hDuration, hScenarios, hSteps, hDuration', hScenarios', hSteps']

/-! ## Reading the line -/

def Reader.pendingLines (r : Reader) : List (List Char) :=
  match r.mode with
  | .summary scenarios steps => scenarios :: steps.toList
  | _ => []

theorem Says.hasDuration {line : List Char} {run : Duration} {scenarios steps : CountPhrase}
    (h : Says line run scenarios steps) : hasDuration line = true := by
  rw [Transcript.hasDuration, h.duration]
  rfl

theorem isSectionMarker_of_isDigit_head {line : List Char} (h : ∀ c ∈ line.head?, isDigit c = true) :
    isSectionMarker line = false := by
  rw [isSectionMarker, Bool.or_eq_false_iff, beq_eq_false_iff_ne, beq_eq_false_iff_ne]
  constructor
  · rintro rfl
    exact absurd (h 'F' rfl) (by decide)
  · rintro rfl
    exact absurd (h 'W' rfl) (by decide)

theorem PhrasedSummary.OneLine.isSummaryOpening {s : PhrasedSummary} (h : s.WellFormed) {line : List Char}
    (hLine : s.OneLine line) : isSummaryOpening line = true := by
  obtain ⟨e, entries, hEntries⟩ := h.scenarios_listed
  obtain ⟨rest, hRead, -⟩ := (hLine.reading h).counts
  rw [Transcript.isSummaryOpening, hRead]
  simp only [hEntries, Option.isSome_some, Bool.true_or]

/-- In every state without a summary the line completes one, behind the lines that are pending. -/
theorem Reader.readLine_oneLine (r : Reader) (hOpen : ∀ text, r.mode ≠ .done text) {s : PhrasedSummary}
    (h : s.WellFormed) {line : List Char} (hLine : s.OneLine line) :
    r.readLine line = ⟨.done (joinLines (r.pendingLines ++ [line])), r.messageAtSummary, r.held⟩ := by
  have hPlain := hLine.plain h
  have hDuration := (hLine.reading h).hasDuration
  have hMarker := isSectionMarker_of_isDigit_head (hLine.isDigit_head h)
  have hJoin : joinLines [line] = line := by simp [joinLines]
  obtain ⟨mode, message, held⟩ := r
  cases mode with
  | idle =>
    simp only [Reader.readLine, hPlain.cleanLine_eq, Reader.readIdle, hPlain.trim_eq, hMarker, hDuration,
      Reader.pendingLines, List.nil_append, hJoin, Bool.false_eq_true, if_false, if_true]
    rfl
  | failureCapture block =>
    simp only [Reader.readLine, hPlain.cleanLine_eq, Reader.readFailure, Reader.readIdle, hPlain.trim_eq, hMarker,
      hDuration, hLine.isSummaryOpening h, Reader.pendingLines, List.nil_append, hJoin, Bool.false_eq_true, if_false,
      if_true]
    rfl
  | summary scenarios steps =>
    simp only [Reader.readLine, hPlain.cleanLine_eq, Reader.readSummary, hPlain.trim_eq, hDuration, if_true]
    rfl
  | done text => exact absurd rfl (hOpen text)

theorem PhrasedSummary.foldl_feedLine_oneLine {s : PhrasedSummary} (h : s.WellFormed) (r : Reader)
    (hOpen : ∀ text, r.mode ≠ .done text) {line : List Char} (hLine : s.OneLine line) (further : List String) :
    (String.ofList line :: further).foldl Reader.feedLine r =
      ⟨.done (joinLines (r.pendingLines ++ [line])), r.messageAtSummary, r.held⟩ := by
  have hFeed : '\n' ∉ (String.ofList line).toList := by
    rw [String.toList_ofList]
    exact (hLine.plain h).feed_notMem
  rw [List.foldl_cons, r.feedLine_of_notMem hFeed, String.toList_ofList, r.readLine_oneLine hOpen h hLine,
    Reader.foldl_feedLine_done]

theorem PhrasedSummary.WellFormed.phraseLine {s : PhrasedSummary} (h : s.WellFormed)
    (scenariosPlural stepsPlural : Bool) :
    PhraseLine "scenario" s.scenarios (s.scenarios.text "scenario" scenariosPlural) ∧
      PhraseLine "step" s.steps (s.steps.text "step" stepsPlural) := by
  obtain ⟨e, entries, hScenarios⟩ := h.scenarios_listed
  obtain ⟨f, others, hSteps⟩ := h.steps_listed
  refine ⟨⟨h.scenarios, scenariosPlural, rfl, ?_⟩, ⟨h.steps, stepsPlural, rfl, ?_⟩⟩
  · intro hNone
    rw [hScenarios] at hNone
    cases hNone
  · intro hNone
    rw [hSteps] at hNone
    cases hNone

/-- The two forms of a summary. The single line completes what is pending, while three lines start afresh, so that the
forms have one verdict, or one fault, in every state where nothing is pending. -/
theorem verdict_of_oneLine (r : Reader) (hOpen : ∀ text, r.mode ≠ .done text) (subject : Subject) (s : PhrasedSummary)
    (h : s.WellFormed) (line : List Char) (hLine : s.OneLine line) (lines : List (List Char))
    (hLines : s.ThreeLines lines) (further : List String) :
    (((String.ofList line :: further).foldl Reader.feedLine r).finish subject).2 =
        judgeSummary subject (r.messageAtSummary.map String.ofList) (joinLines (r.pendingLines ++ [line])) ∧
      (((lines.map String.ofList ++ further).foldl Reader.feedLine r).finish subject).2 =
        judgeSummary subject (r.messageAtSummary.map String.ofList) (joinLines lines) ∧
      (r.pendingLines = [] →
        (((String.ofList line :: further).foldl Reader.feedLine r).finish subject).2 =
          (((lines.map String.ofList ++ further).foldl Reader.feedLine r).finish subject).2) := by
  have hOne := congrArg (fun r' : Reader => (r'.finish subject).2) (s.foldl_feedLine_oneLine h r hOpen hLine further)
  obtain ⟨scenariosPlural, stepsPlural⟩ := hLines
  obtain ⟨hFirst, hSecond⟩ := h.phraseLine scenariosPlural stepsPlural
  have hThree := congrArg (fun r' : Reader => (r'.finish subject).2)
    (r.foldl_feedLine_summary hOpen hFirst hSecond h.run h.stepTime further)
  simp only [Reader.verdict_done] at hOne hThree
  refine ⟨hOne, hThree, fun hPending => ?_⟩
  have hJoin : joinLines [line] = line := by simp [joinLines]
  rw [hOne, hThree, hPending, List.nil_append, hJoin]
  exact (hLine.reading h).judgeSummary_eq (says_lines hFirst hSecond h.run h.stepTime) subject _

def passedSummary : PhrasedSummary :=
  ⟨⟨['1'], some [⟨['1'], "passed".toList⟩]⟩, ⟨['2'], some [⟨['2'], "passed".toList⟩]⟩, ⟨['0'], ['1'], []⟩,
    ⟨['0'], ['1'], []⟩⟩

theorem wellFormed_passedSummary : passedSummary.WellFormed := by
  have hTime : Duration.WellFormed ⟨['0'], ['1'], []⟩ :=
    ⟨by decide, List.all_eq_true.mp (by decide), by decide, List.all_eq_true.mp (by decide), by simp⟩
  have hWord : ∀ c ∈ "passed".toList, isLowerLetter c = true := List.all_eq_true.mp (by decide)
  have hPhrase : ∀ c, isDigit c = true → CountPhrase.WellFormed ⟨[c], some [⟨[c], "passed".toList⟩]⟩ := by
    intro c hc
    have hNumeral : ∀ d ∈ [c], isDigit d = true := by
      intro d hd
      rwa [List.mem_singleton.mp hd]
    refine ⟨by simp, hNumeral, fun e he => ?_⟩
    obtain rfl := List.mem_singleton.mp he
    exact ⟨by simp, hNumeral, by simp, hWord⟩
  exact ⟨hPhrase '1' (by decide), hPhrase '2' (by decide), ⟨_, _, rfl⟩, ⟨_, _, rfl⟩, hTime, hTime⟩

theorem oneLine_passedSummary :
    passedSummary.OneLine "1 scenario: 1 passed 2 steps: 2 passed 0m1s (executing steps: 0m1s)".toList := by
  have hText : "1 scenario: 1 passed 2 steps: 2 passed 0m1s (executing steps: 0m1s)".toList =
      passedSummary.scenarios.listedText "scenario" false ++ ' ' :: (passedSummary.steps.listedText "step" true ++
        ' ' :: durationText passedSummary.run passedSummary.stepTime) := by decide +kernel
  rw [hText]
  exact .line false true

theorem threeLines_passedSummary :
    passedSummary.ThreeLines ["1 scenario (1 passed)".toList, "2 steps (2 passed)".toList,
      "0m1s (executing steps: 0m1s)".toList] := by
  have hFirst : "1 scenario (1 passed)".toList = passedSummary.scenarios.text "scenario" false := by decide +kernel
  have hSecond : "2 steps (2 passed)".toList = passedSummary.steps.text "step" true := by decide +kernel
  have hThird : "0m1s (executing steps: 0m1s)".toList = durationText passedSummary.run passedSummary.stepTime := by
    decide +kernel
  rw [hFirst, hSecond, hThird]
  exact .lines false true

/-- In the middle of a failure both forms end it, and give the same verdict. -/
theorem verdict_of_oneLine_in_failure :
    (∀ text, Reader.mode ⟨.failureCapture (some []), none, []⟩ ≠ .done text) ∧
      Reader.pendingLines ⟨.failureCapture (some []), none, []⟩ = [] ∧
      ((["1 scenario: 1 passed 2 steps: 2 passed 0m1s (executing steps: 0m1s)"].foldl Reader.feedLine
          ⟨.failureCapture (some []), none, []⟩).finish ⟨"Login", false⟩).2 =
        ((["1 scenario (1 passed)", "2 steps (2 passed)", "0m1s (executing steps: 0m1s)"].foldl Reader.feedLine
          ⟨.failureCapture (some []), none, []⟩).finish ⟨"Login", false⟩).2 := by
  have hOpen : ∀ text, Reader.mode ⟨.failureCapture (some []), none, []⟩ ≠ .done text := by
    intro text h
    cases h
  have hForms := (verdict_of_oneLine _ hOpen ⟨"Login", false⟩ passedSummary wellFormed_passedSummary _
    oneLine_passedSummary _ threeLines_passedSummary []).2.2 rfl
  exact ⟨hOpen, rfl, hForms⟩

/-- Output that starts like a count is pending, and takes a single line for its own duration. -/
theorem verdict_of_oneLine_after_count :
    ¬ ∀ (before : List String) (subject : Subject) (s : PhrasedSummary) (line : List Char) (lines : List (List Char)),
      (∀ text, (before.foldl Reader.feedLine {}).mode ≠ .done text) → s.WellFormed → s.OneLine line →
      s.ThreeLines lines →
      (((before ++ [String.ofList line]).foldl Reader.feedLine {}).finish subject).2 =
        (((before ++ lines.map String.ofList).foldl Reader.feedLine {}).finish subject).2 := by
  intro h
  have hMode : (["2 scenarios were loaded"].foldl Reader.feedLine {}).mode =
      .summary "2 scenarios were loaded".toList none := by decide +kernel
  have hOpen : ∀ text, (["2 scenarios were loaded"].foldl Reader.feedLine {}).mode ≠ .done text := by
    intro text hDone
    rw [hMode] at hDone
    cases hDone
  have hForms := h ["2 scenarios were loaded"] ⟨"Login", false⟩ passedSummary _ _ hOpen
    wellFormed_passedSummary oneLine_passedSummary threeLines_passedSummary
  have hOne : (interpret ["2 scenarios were loaded",
      "1 scenario: 1 passed 2 steps: 2 passed 0m1s (executing steps: 0m1s)"] ⟨"Login", false⟩).map Verdict.outcome =
        .ok .errored := by decide +kernel
  have hThree : (interpret ["2 scenarios were loaded", "1 scenario (1 passed)", "2 steps (2 passed)",
      "0m1s (executing steps: 0m1s)"] ⟨"Login", false⟩).map Verdict.outcome = .ok .passed := by decide +kernel
  have hOutcomes := congrArg (Except.map Verdict.outcome) hForms
  have hAbsurd := hOne.symm.trans (hOutcomes.trans hThree)
  cases hAbsurd

end ScenarioRunner.Transcript
