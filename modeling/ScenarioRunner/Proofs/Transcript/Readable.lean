import ScenarioRunner.Proofs.Transcript.Outcome

/-!
# When a verdict can be given

Numerals are read up to a limit of digits, whole numbers are written up to the same limit, and minutes must fit into a
double. Main statement: the answer to a call is a fault exactly if the call ends the transcript and a number of the
summary is beyond one of these limits. There is no other fault, and no other call has one.
-/

namespace ScenarioRunner.Transcript

open ScenarioRunner.Text

set_option autoImplicit false

/-! ## Results that depend on the size of numbers -/

inductive SizeFault : Fault → Prop where
  | numeralTooLong (digits : Nat) : SizeFault (.numeralTooLong digits)
  | numberTooLong : SizeFault .numberTooLong
  | numberTooLarge : SizeFault .numberTooLarge

/-- A result that is a given value on a condition, and a fault about the size of a number otherwise. -/
structure YieldsIf {α : Type} (condition : Prop) (value : α) (result : Except Fault α) : Prop where
  ok : condition → result = .ok value
  fault : ¬ condition → ∃ fault, SizeFault fault ∧ result = .error fault

section

variable {α β : Type} {P Q : Prop} {a : α} {b : β}

theorem yieldsIf_ok (h : P) (a : α) : YieldsIf P a (.ok a) where
  ok _ := rfl
  fault hNot := absurd h hNot

theorem YieldsIf.congr {result : Except Fault α} (h : YieldsIf P a result) (hIff : P ↔ Q) : YieldsIf Q a result where
  ok hQ := h.ok (hIff.mpr hQ)
  fault hQ := h.fault fun hP => hQ (hIff.mp hP)

theorem YieldsIf.bind {x : Except Fault α} {f : α → Except Fault β} (hx : YieldsIf P a x)
    (hf : P → YieldsIf Q b (f a)) : YieldsIf (P ∧ Q) b (x >>= f) where
  ok := by
    rintro ⟨hP, hQ⟩
    rw [hx.ok hP]
    exact (hf hP).ok hQ
  fault hNot := by
    by_cases hP : P
    · rw [hx.ok hP]
      exact (hf hP).fault fun hQ => hNot ⟨hP, hQ⟩
    · obtain ⟨fault, hSize, hError⟩ := hx.fault hP
      exact ⟨fault, hSize, by rw [hError]; rfl⟩

theorem YieldsIf.map {x : Except Fault α} (hx : YieldsIf P a x) (g : α → β) :
    YieldsIf P (g a) (x >>= fun y => .ok (g y)) :=
  (hx.bind fun _ => yieldsIf_ok trivial (g a)).congr (and_iff_left trivial)

end

/-! ## Numbers -/

theorem yieldsIf_readNumeral (digits : List Char) :
    YieldsIf (digits.length ≤ Decimal.numeralLimit) (numeralValue digits) (Decimal.readNumeral digits) where
  ok h := if_neg (Nat.not_lt.mpr h)
  fault h := ⟨_, .numeralTooLong digits.length, if_pos (Nat.lt_of_not_le h)⟩

theorem yieldsIf_writeNumber (n : Int) :
    YieldsIf (n.natAbs < Nat.pow 10 Decimal.numeralLimit) (toString n) (Decimal.writeNumber n) where
  ok h := (Decimal.writeNumber_eq_ok_iff _ _).mpr ⟨h, rfl⟩
  fault h := ⟨_, .numberTooLong, if_pos (Nat.le_of_not_lt h)⟩

/-! ## Durations and counts -/

structure Duration.Bounded (d : Duration) : Prop where
  length_minutes_le : d.minutes.length ≤ Decimal.numeralLimit
  seconds_lt : numeralValue d.minutes * 60 < Decimal.doubleBound

/-- Minutes of so many digits make a double. -/
def safeDigits : Nat := 300

theorem Duration.bounded_of_length_le {d : Duration} (h : d.minutes.length ≤ safeDigits) : d.Bounded where
  length_minutes_le := Nat.le_trans h (by decide)
  seconds_lt := by
    have hValue := numeralValue_lt_of_length_le h
    have hBound : Nat.pow 10 safeDigits * 60 ≤ Decimal.doubleBound := by decide +kernel
    exact Nat.lt_of_lt_of_le (Nat.mul_lt_mul_of_pos_right hValue (by decide)) hBound

def Duration.value (d : Duration) : Float :=
  Decimal.nearest (numeralValue d.minutes * 60) 1 +
    Decimal.nearest (numeralValue (d.seconds ++ d.fraction)) (Nat.pow 10 d.fraction.length)

theorem Duration.yieldsIf_elapsedSeconds (d : Duration) : YieldsIf d.Bounded d.value d.elapsedSeconds := by
  have hFits : YieldsIf (numeralValue d.minutes * 60 < Decimal.doubleBound) d.value
      (if Decimal.doubleBound ≤ numeralValue d.minutes * 60 then .error .numberTooLarge else .ok d.value) :=
    { ok := fun h => if_neg (Nat.not_le.mpr h)
      fault := fun h => ⟨_, .numberTooLarge, if_pos (Nat.le_of_not_lt h)⟩ }
  have hRead := (yieldsIf_readNumeral d.minutes).bind
    (f := fun minutes => if Decimal.doubleBound ≤ minutes * 60 then .error .numberTooLarge
      else .ok (Decimal.nearest (minutes * 60) 1 +
        Decimal.nearest (numeralValue (d.seconds ++ d.fraction)) (Nat.pow 10 d.fraction.length))) fun _ => hFits
  exact hRead.congr ⟨fun h => ⟨h.1, h.2⟩, fun h => ⟨h.length_minutes_le, h.seconds_lt⟩⟩

def Entry.share (e : Entry) : Share :=
  ⟨numeralValue e.numeral, String.ofList e.word⟩

def CountPhrase.shares (p : CountPhrase) : List Share :=
  (p.breakdown.getD []).map Entry.share

structure CountPhrase.Bounded (p : CountPhrase) : Prop where
  length_numeral_le : p.numeral.length ≤ Decimal.numeralLimit
  length_entry_le : ∀ e ∈ p.breakdown.getD [], e.numeral.length ≤ Decimal.numeralLimit

theorem yieldsIf_foldlM_add (entries : List Entry) (t : Tally) :
    YieldsIf (∀ e ∈ entries, e.numeral.length ≤ Decimal.numeralLimit)
      ((entries.map Entry.share).foldl (fun t s => t.add s.word s.number) t)
      (entries.foldlM (fun t e => do return t.add (String.ofList e.word) (← Decimal.readNumeral e.numeral)) t) := by
  induction entries generalizing t with
  | nil => exact yieldsIf_ok (by simp) t
  | cons e entries ih =>
    rw [List.foldlM_cons, List.map_cons, List.foldl_cons]
    have hFirst := (yieldsIf_readNumeral e.numeral).map fun n => t.add (String.ofList e.word) n
    exact (hFirst.bind fun _ => ih _).congr (by rw [List.forall_mem_cons])

theorem CountPhrase.yieldsIf_tally (p : CountPhrase) :
    YieldsIf (∀ e ∈ p.breakdown.getD [], e.numeral.length ≤ Decimal.numeralLimit) (tallyOf p.shares) p.tally :=
  yieldsIf_foldlM_add _ []

theorem CountPhrase.yieldsIf_total (p : CountPhrase) :
    YieldsIf (p.numeral.length ≤ Decimal.numeralLimit) (numeralValue p.numeral) p.total :=
  yieldsIf_readNumeral p.numeral

theorem CountPhrase.bounded_iff (p : CountPhrase) :
    p.Bounded ↔ p.numeral.length ≤ Decimal.numeralLimit ∧
      ∀ e ∈ p.breakdown.getD [], e.numeral.length ≤ Decimal.numeralLimit :=
  ⟨fun h => ⟨h.length_numeral_le, h.length_entry_le⟩, fun h => ⟨h.1, h.2⟩⟩

theorem CountPhrase.yieldsIf_readSteps (p : CountPhrase) :
    YieldsIf p.Bounded (totalOf "passed" p.shares, numeralValue p.numeral) (readSteps p) := by
  rw [readSteps, ← count_tallyOf, p.bounded_iff]
  exact p.yieldsIf_total.bind fun _ => p.yieldsIf_tally.map fun t => (t.count "passed", numeralValue p.numeral)

/-! ## Summaries -/

def stepPhrase? (text rest : List Char) : Option CountPhrase :=
  CountPhrase.find? "step" (startsLineAfter text rest) rest

/-- What a summary text says, with numbers of any size. -/
def Summary.ofText (text : List Char) (scenarios : CountPhrase) (rest : List Char) : Summary where
  elapsed := (Duration.find? text).map Duration.value
  scenarios := numeralValue scenarios.numeral
  tally := tallyOf scenarios.shares
  steps := (stepPhrase? text rest).map fun p => (totalOf "passed" p.shares, numeralValue p.numeral)

theorem yieldsIf_readElapsed (text : List Char) :
    YieldsIf (∀ d ∈ Duration.find? text, d.Bounded) ((Duration.find? text).map Duration.value) (readElapsed text) := by
  rw [readElapsed]
  cases Duration.find? text with
  | none => exact yieldsIf_ok (by simp) _
  | some d => exact (d.yieldsIf_elapsedSeconds.map some).congr (by simp)

theorem yieldsIf_readCounts (text : List Char) (scenarios : CountPhrase) (rest : List Char) :
    YieldsIf (scenarios.Bounded ∧ ∀ p ∈ stepPhrase? text rest, p.Bounded) (Summary.ofText text scenarios rest)
      (readCounts ((Duration.find? text).map Duration.value) text scenarios rest) := by
  rw [readCounts, scenarios.bounded_iff, and_assoc]
  refine scenarios.yieldsIf_total.bind fun _ => scenarios.yieldsIf_tally.bind fun _ => ?_
  rw [Summary.ofText, ← stepPhrase?]
  cases stepPhrase? text rest with
  | none => exact yieldsIf_ok (by simp) _
  | some p =>
    have hSteps := p.yieldsIf_readSteps.map fun steps => Summary.mk ((Duration.find? text).map Duration.value)
      (numeralValue scenarios.numeral) (tallyOf scenarios.shares) (some steps)
    exact hSteps.congr (by simp)

/-! ## Verdicts -/

/-- The passed part of a total may exceed it, but only by a number that can be written. -/
def ShortfallBounded (total passed : Nat) : Prop :=
  passed < total + Nat.pow 10 Decimal.numeralLimit

theorem shortfallBounded_iff {total : Nat} (passed : Nat) (hTotal : total < Nat.pow 10 Decimal.numeralLimit) :
    (shortfall total passed).natAbs < Nat.pow 10 Decimal.numeralLimit ↔ ShortfallBounded total passed := by
  rw [ShortfallBounded, shortfall]
  generalize Nat.pow 10 Decimal.numeralLimit = bound at hTotal ⊢
  omega

theorem yieldsIf_writeShortfall {β : Type} {total : Nat} (passed : Nat)
    (hTotal : total < Nat.pow 10 Decimal.numeralLimit) (g : String → String → β) :
    YieldsIf (ShortfallBounded total passed) (g (toString (shortfall total passed)) (toString (total : Int)))
      (Decimal.writeNumber (shortfall total passed) >>= fun missing =>
        Decimal.writeNumber total >>= fun whole => .ok (g missing whole)) := by
  have hWhole := ((yieldsIf_writeNumber total).congr (iff_true_intro hTotal)).map
    (g (toString (shortfall total passed)))
  have hWrite := (yieldsIf_writeNumber (shortfall total passed)).bind
    (f := fun missing => Decimal.writeNumber total >>= fun whole => .ok (g missing whole)) fun _ => hWhole
  rw [and_true, shortfallBounded_iff passed hTotal] at hWrite
  exact hWrite

/-- The total and its passed part that the message of the verdict compares, if it compares any. -/
def Summary.compared? (s : Summary) (subject : Subject) (failure : Option String) : Option (Nat × Nat) :=
  if s.scenarios = 1 then
    if s.tally.single? = some "failed" ∧ failure = none then some (s.steps.getD (0, 0)).swap else none
  else if 1 < s.scenarios ∧ subject.isOutline = true ∧ s.tally.count "passed" ≠ s.scenarios ∧
      s.tally.count "skipped" ≠ s.scenarios then some (s.scenarios, s.tally.count "passed")
  else none

theorem Summary.yieldsIf_singleVerdict (s : Summary) (subject : Subject) (failure : Option String)
    (hTotal : (s.steps.getD (0, 0)).2 < Nat.pow 10 Decimal.numeralLimit) :
    ∃ verdict, YieldsIf (s.tally.single? = some "failed" ∧ failure = none →
      ShortfallBounded (s.steps.getD (0, 0)).2 (s.steps.getD (0, 0)).1) verdict (s.singleVerdict subject failure) := by
  unfold Summary.singleVerdict
  generalize s.tally.single? = word
  split
  · exact ⟨_, yieldsIf_ok (by simp) _⟩
  · exact ⟨_, yieldsIf_ok (by simp) _⟩
  · cases failure with
    | some message => exact ⟨_, yieldsIf_ok (by simp) _⟩
    | none =>
      have hMessage := yieldsIf_writeShortfall (s.steps.getD (0, 0)).1 hTotal fun missing whole =>
        missing ++ " out of " ++ whole ++ " steps failed"
      exact ⟨_, (YieldsIf.map hMessage fun text => s.verdict .failed (some text)).congr (by simp)⟩
  · next other hPassed hSkipped hFailed =>
    split
    · exact ⟨_, yieldsIf_ok (fun h => (hFailed (Option.some.inj h.1)).elim) _⟩
    · exact ⟨_, yieldsIf_ok (fun h => (hFailed (Option.some.inj h.1)).elim) _⟩
  · exact ⟨_, yieldsIf_ok (by simp) _⟩

theorem Summary.yieldsIf_outlineVerdict (s : Summary) (subject : Subject) (failure : Option String)
    (hTotal : s.scenarios < Nat.pow 10 Decimal.numeralLimit) :
    ∃ verdict, YieldsIf (s.tally.count "passed" ≠ s.scenarios ∧ s.tally.count "skipped" ≠ s.scenarios →
      ShortfallBounded s.scenarios (s.tally.count "passed")) verdict (s.outlineVerdict subject failure) := by
  rw [Summary.outlineVerdict]
  split_ifs with hPassed hSkipped
  · exact ⟨_, yieldsIf_ok (fun h => absurd hPassed h.1) _⟩
  · exact ⟨_, yieldsIf_ok (fun h => absurd hSkipped h.2) _⟩
  · have hMessage := yieldsIf_writeShortfall (s.tally.count "passed") hTotal fun missing whole =>
      s.verdict .failed (some ("Scenario outline \"" ++ subject.name ++ "\" failed: " ++ missing ++ " out of " ++
        whole ++ " examples did not pass" ++ (failure.map ("\n\n" ++ ·)).getD ""))
    exact ⟨_, hMessage.congr ⟨fun h _ => h, fun h => h ⟨hPassed, hSkipped⟩⟩⟩

theorem Summary.yieldsIf_judge (s : Summary) (subject : Subject) (failure : Option String)
    (hScenarios : s.scenarios < Nat.pow 10 Decimal.numeralLimit)
    (hSteps : (s.steps.getD (0, 0)).2 < Nat.pow 10 Decimal.numeralLimit) :
    ∃ verdict, YieldsIf (∀ c ∈ s.compared? subject failure, ShortfallBounded c.1 c.2) verdict
      (s.judge subject failure) := by
  by_cases hOne : s.scenarios = 1
  · have hSome : s.scenarios ≠ 0 := by omega
    obtain ⟨verdict, hVerdict⟩ := s.yieldsIf_singleVerdict subject failure hSteps
    rw [Summary.judge, if_neg hSome, if_pos hOne, Summary.compared?, if_pos hOne]
    refine ⟨verdict, hVerdict.congr ?_⟩
    split_ifs with hMessage
    · simp [hMessage]
    · simp [hMessage]
  by_cases hRows : 1 < s.scenarios ∧ subject.isOutline = true
  · have hSome : s.scenarios ≠ 0 := by omega
    obtain ⟨verdict, hVerdict⟩ := s.yieldsIf_outlineVerdict subject failure hScenarios
    rw [Summary.judge, if_neg hSome, if_neg hOne, if_pos hRows.2, Summary.compared?, if_neg hOne]
    refine ⟨verdict, hVerdict.congr ?_⟩
    split_ifs with hMessage
    · simp [hMessage]
    · simp only [hRows, true_and] at hMessage
      simp [hMessage]
  · have hNone : s.compared? subject failure = none := by
      rw [Summary.compared?, if_neg hOne, if_neg fun h => hRows ⟨h.1, h.2.1⟩]
    rw [Summary.judge, if_neg hOne, hNone]
    split_ifs with hZero hOutline
    · exact ⟨_, yieldsIf_ok (by simp) _⟩
    · exact absurd ⟨by omega, hOutline⟩ hRows
    · exact ⟨_, yieldsIf_ok (by simp) _⟩

/-! ## Transcripts -/

/-- A summary text whose numbers can all be read, and compared in a message where there is one. -/
structure Readable (subject : Subject) (failure : Option String) (text : List Char) : Prop where
  duration : ∀ d ∈ Duration.find? text, d.Bounded
  scenarios : ∀ found ∈ CountPhrase.read? "scenario" text, found.1.Bounded
  steps : ∀ found ∈ CountPhrase.read? "scenario" text, ∀ p ∈ stepPhrase? text found.2, p.Bounded
  message : ∀ found ∈ CountPhrase.read? "scenario" text,
    ∀ c ∈ (Summary.ofText text found.1 found.2).compared? subject failure, ShortfallBounded c.1 c.2

theorem Summary.yieldsIf_judge_ofText (subject : Subject) (failure : Option String) (text : List Char)
    (scenarios : CountPhrase) (rest : List Char) (h : scenarios.Bounded ∧ ∀ p ∈ stepPhrase? text rest, p.Bounded) :
    ∃ verdict, YieldsIf
      (∀ c ∈ (Summary.ofText text scenarios rest).compared? subject failure, ShortfallBounded c.1 c.2) verdict
      ((Summary.ofText text scenarios rest).judge subject failure) := by
  apply Summary.yieldsIf_judge
  · exact numeralValue_lt_of_length_le h.1.length_numeral_le
  · rw [Summary.ofText]
    cases hSteps : stepPhrase? text rest with
    | none =>
      have hZero : numeralValue [] < Nat.pow 10 Decimal.numeralLimit := numeralValue_lt_of_length_le (Nat.zero_le _)
      exact hZero
    | some p => exact numeralValue_lt_of_length_le (h.2 p hSteps).length_numeral_le

theorem yieldsIf_judgeSummary (subject : Subject) (failure : Option String) (text : List Char) :
    ∃ verdict, YieldsIf (Readable subject failure text) verdict (judgeSummary subject failure text) := by
  rw [judgeSummary]
  cases hScenarios : CountPhrase.read? "scenario" text with
  | none =>
    have hRead := (yieldsIf_readElapsed text).map fun elapsed => Verdict.mk .errored
      (some (failure.getD ("Unable to read the run summary for \"" ++ subject.name ++ "\""))) elapsed none none none
      none
    refine ⟨_, hRead.congr ⟨fun h => ⟨h, ?_, ?_, ?_⟩, fun h => h.duration⟩⟩
    all_goals simp [hScenarios]
  | some found =>
    obtain ⟨scenarios, rest⟩ := found
    -- The judgement has this form only where the counts can be read; elsewhere any verdict will do.
    have hJudge : ∃ verdict, (scenarios.Bounded ∧ ∀ p ∈ stepPhrase? text rest, p.Bounded) → YieldsIf
        (∀ c ∈ (Summary.ofText text scenarios rest).compared? subject failure, ShortfallBounded c.1 c.2) verdict
        ((Summary.ofText text scenarios rest).judge subject failure) := by
      by_cases h : scenarios.Bounded ∧ ∀ p ∈ stepPhrase? text rest, p.Bounded
      · obtain ⟨verdict, hVerdict⟩ := Summary.yieldsIf_judge_ofText subject failure text scenarios rest h
        exact ⟨verdict, fun _ => hVerdict⟩
      · exact ⟨{ outcome := .errored }, fun h' => absurd h' h⟩
    obtain ⟨verdict, hVerdict⟩ := hJudge
    have hRead := (yieldsIf_readElapsed text).bind
      (f := fun elapsed => readCounts elapsed text scenarios rest >>= fun s => s.judge subject failure)
      fun _ => (yieldsIf_readCounts text scenarios rest).bind hVerdict
    refine ⟨verdict, hRead.congr ⟨fun h => ⟨h.1, ?_, ?_, ?_⟩, fun h => ⟨h.duration, ⟨?_, ?_⟩, ?_⟩⟩⟩
    · rw [hScenarios]
      rintro _ ⟨⟩
      exact h.2.1.1
    · rw [hScenarios]
      rintro _ ⟨⟩
      exact h.2.1.2
    · rw [hScenarios]
      rintro _ ⟨⟩
      exact h.2.2
    · exact h.scenarios _ hScenarios
    · exact h.steps _ hScenarios
    · exact h.message _ hScenarios

def Reader.Readable (r : Reader) (subject : Subject) : Prop :=
  ∀ text, r.mode = .done text → Transcript.Readable subject (r.failureMessage.map String.ofList) text

theorem Reader.yieldsIf_verdict (r : Reader) (subject : Subject) :
    ∃ verdict, YieldsIf (r.Readable subject) verdict (r.verdict subject) := by
  obtain ⟨mode, failure, held⟩ := r
  cases mode with
  | done text =>
    obtain ⟨verdict, hVerdict⟩ := yieldsIf_judgeSummary subject (failure.map String.ofList) text
    exact ⟨verdict, hVerdict.congr (by simp [Reader.Readable])⟩
  | _ => cases failure <;> exact ⟨_, yieldsIf_ok (by simp [Reader.Readable]) _⟩

inductive Call where
  | feed (chunk : String)
  | feedLine (text : String)
  | finish
deriving DecidableEq

/-- The reader after a call, and the answer to it. Only the end of a transcript is answered with a verdict. -/
def Reader.answer (subject : Subject) (r : Reader) : Call → Reader × Except Fault (Option Verdict)
  | .feed chunk => (r.feed chunk, .ok none)
  | .feedLine text => (r.feedLine text, .ok none)
  | .finish => ((r.finish subject).1, (r.finish subject).2.map some)

def Reader.afterCalls (subject : Subject) (calls : List Call) : Reader :=
  calls.foldl (fun r call => (r.answer subject call).1) {}

/-- After any calls, the next one is answered unless it ends a transcript whose summary is not readable, and the fault
is then one about the size of a number. -/
theorem answer_eq_ok_iff (subject : Subject) (calls : List Call) (call : Call) :
    ((∃ verdict, ((Reader.afterCalls subject calls).answer subject call).2 = .ok verdict ∧
        (verdict.isSome = true ↔ call = .finish)) ↔
      (call = .finish → (Reader.afterCalls subject calls).close.Readable subject)) ∧
    ∀ fault, ((Reader.afterCalls subject calls).answer subject call).2 = .error fault → SizeFault fault := by
  generalize Reader.afterCalls subject calls = r
  cases call with
  | feed chunk => simp [Reader.answer]
  | feedLine text => simp [Reader.answer]
  | finish =>
    obtain ⟨verdict, hVerdict⟩ := r.close.yieldsIf_verdict subject
    have hAnswer : (r.answer subject .finish).2 = (r.close.verdict subject).map some := rfl
    rw [hAnswer]
    by_cases hReadable : r.close.Readable subject
    · rw [hVerdict.ok hReadable]
      simp [hReadable, Except.map]
    · obtain ⟨fault, hSize, hError⟩ := hVerdict.fault hReadable
      rw [hError]
      simp [hReadable, hSize, Except.map]

def longMinutes : List Char :=
  List.replicate 307 '9' ++ "m0s (executing steps: 0m0s)".toList

theorem exists_call_not_answered :
    ¬ ∀ (subject : Subject) (calls : List Call) (call : Call),
      ∃ verdict, ((Reader.afterCalls subject calls).answer subject call).2 = .ok verdict := by
  intro h
  obtain ⟨verdict, hVerdict⟩ := h ⟨"x", false⟩ [.feedLine (String.ofList longMinutes)] .finish
  have hReader : Reader.afterCalls ⟨"x", false⟩ [.feedLine (String.ofList longMinutes)] =
      ⟨.done longMinutes, none, []⟩ := by
    simp only [Reader.afterCalls, List.foldl_cons, List.foldl_nil, Reader.answer, Reader.feedLine, String.toList_ofList]
    decide +kernel
  have hFault : ((Reader.answer ⟨"x", false⟩ ⟨.done longMinutes, none, []⟩ .finish).2).map Option.isSome =
      .error .numberTooLarge := by decide +kernel
  rw [hReader] at hVerdict
  rw [hVerdict] at hFault
  cases hFault

end ScenarioRunner.Transcript
