import Mathlib.Tactic.Common
import ScenarioRunner.Proofs.Text.Numeral
import ScenarioRunner.Transcript.Duration

/-!
# Written durations

A written duration is the time of the run and the time of its steps. Main statements: a written duration is read back,
and lines without a colon in front of it are skipped, because a duration has a colon before its first line feed.
-/

namespace ScenarioRunner.Transcript

open ScenarioRunner.Text

set_option autoImplicit false

structure Duration.WellFormed (d : Duration) : Prop where
  minutes_ne_nil : d.minutes ≠ []
  isDigit_minutes : ∀ c ∈ d.minutes, isDigit c = true
  seconds_ne_nil : d.seconds ≠ []
  isDigit_seconds : ∀ c ∈ d.seconds, isDigit c = true
  isDigit_fraction : ∀ c ∈ d.fraction, isDigit c = true

def fractionText (fraction : List Char) : List Char :=
  if fraction = [] then [] else '.' :: fraction

def Duration.timeText (d : Duration) : List Char :=
  d.minutes ++ 'm' :: (d.seconds ++ fractionText d.fraction)

def durationText (run steps : Duration) : List Char :=
  run.timeText ++ ("s (executing steps: ".toList ++ (steps.timeText ++ "s)".toList))

/-! ## Reading back -/

theorem Duration.readTime?_timeText {d : Duration} (h : d.WellFormed) {rest : List Char}
    (hRest : ∀ c ∈ rest.head?, isDigit c = false ∧ c ≠ '.') :
    Duration.readTime? (d.timeText ++ rest) = some (d, rest) := by
  obtain ⟨minutes, seconds, fraction⟩ := d
  have hMinutes : run? isDigit (minutes ++ (['m'] ++ (seconds ++ (fractionText fraction ++ rest)))) =
      some (minutes, ['m'] ++ (seconds ++ (fractionText fraction ++ rest))) :=
    run?_digits h.minutes_ne_nil h.isDigit_minutes (by decide) _
  have hSeconds : run? isDigit (seconds ++ (fractionText fraction ++ rest)) =
      some (seconds, fractionText fraction ++ rest) := by
    apply run?_append h.seconds_ne_nil h.isDigit_seconds
    intro c hc
    cases fraction with
    | nil => exact (hRest c hc).1
    | cons first fraction =>
      cases hc
      decide
  have hText : Duration.timeText ⟨minutes, seconds, fraction⟩ ++ rest =
      minutes ++ (['m'] ++ (seconds ++ (fractionText fraction ++ rest))) := by simp [Duration.timeText]
  rw [Duration.readTime?, hText, hMinutes]
  simp only [Option.bind_eq_bind, Option.bind_some, after?_append, hSeconds]
  cases fraction with
  | nil =>
    have hPoint : after? ['.'] rest = none := by
      cases rest with
      | nil => rfl
      | cons c rest => simp [after?, Ne.symm (hRest c rfl).2]
    simp [fractionText, hPoint]
  | cons first fraction =>
    have hFraction := run?_append (List.cons_ne_nil first fraction) h.isDigit_fraction fun c hc => (hRest c hc).1
    have hAfter : after? ['.'] (fractionText (first :: fraction) ++ rest) = some (first :: fraction ++ rest) :=
      after?_append ['.'] _
    simp only [hAfter, hFraction, Option.bind_some]
    rfl

theorem Duration.read?_durationText {run steps : Duration} (hRun : run.WellFormed) (hSteps : steps.WellFormed)
    (rest : List Char) : Duration.read? (durationText run steps ++ rest) = some run := by
  have hStart : ∀ {s : List Char}, ∀ c ∈ ('s' :: s).head?, isDigit c = false ∧ c ≠ '.' := by
    intro s c hc
    cases hc
    decide
  have hFirst : Duration.readTime? (run.timeText ++ ("s (executing steps: ".toList ++
      (steps.timeText ++ ("s)".toList ++ rest)))) =
      some (run, "s (executing steps: ".toList ++ (steps.timeText ++ ("s)".toList ++ rest))) :=
    Duration.readTime?_timeText hRun hStart
  have hSecond : Duration.readTime? (steps.timeText ++ ("s)".toList ++ rest)) = some (steps, "s)".toList ++ rest) :=
    Duration.readTime?_timeText hSteps hStart
  have hText : durationText run steps ++ rest =
      run.timeText ++ ("s (executing steps: ".toList ++ (steps.timeText ++ ("s)".toList ++ rest))) := by
    simp only [durationText, List.append_assoc]
  rw [Duration.read?, hText, hFirst]
  simp only [Option.bind_eq_bind, Option.bind_some, after?_append, hSecond]
  rfl

theorem Duration.find?_of_read? {s : List Char} {d : Duration} (h : Duration.read? s = some d) :
    Duration.find? s = some d := by
  cases s with
  | nil => simp [Duration.read?, Duration.readTime?, run?] at h
  | cons c s => rw [Duration.find?, h]

theorem Duration.minutes_of_readTime? {s rest : List Char} {d : Duration} (h : Duration.readTime? s = some (d, rest)) :
    d.minutes <+: s ∧ ∀ c ∈ d.minutes, isDigit c = true := by
  simp only [Duration.readTime?, Option.bind_eq_bind, Option.bind_eq_some_iff, Prod.exists] at h
  obtain ⟨minutes, afterMinutes, hMinutes, _, -, seconds, afterSeconds, -, hEnd⟩ := h
  obtain ⟨rfl, hDigits⟩ := eq_append_of_run? hMinutes
  have hSame : d.minutes = minutes := by
    split at hEnd
    · cases hEnd
      rfl
    · obtain ⟨_, -, hLast⟩ := Option.bind_eq_some_iff.mp hEnd
      cases hLast
      rfl
  rw [hSame]
  exact ⟨List.prefix_append minutes afterMinutes, hDigits⟩

theorem Duration.minutes_of_find? {s : List Char} {d : Duration} (h : Duration.find? s = some d) :
    d.minutes <:+: s ∧ ∀ c ∈ d.minutes, isDigit c = true := by
  induction s using Duration.find?.induct with
  | case1 => simp [Duration.find?] at h
  | case2 c s found hRead =>
    rw [Duration.find?, hRead] at h
    cases h
    rw [Duration.read?] at hRead
    obtain ⟨⟨total, rest⟩, hTime, hRead⟩ := Option.bind_eq_some_iff.mp hRead
    obtain ⟨_, -, hRead⟩ := Option.bind_eq_some_iff.mp hRead
    obtain ⟨_, -, hRead⟩ := Option.bind_eq_some_iff.mp hRead
    obtain ⟨_, -, hTotal⟩ := Option.bind_eq_some_iff.mp hRead
    cases hTotal
    obtain ⟨hPrefix, hDigits⟩ := Duration.minutes_of_readTime? hTime
    exact ⟨hPrefix.isInfix, hDigits⟩
  | case3 c s hRead hDigit ih =>
    rw [Duration.find?, hRead] at h
    simp only [hDigit, if_true] at h
    obtain ⟨hInfix, hDigits⟩ := ih h
    exact ⟨hInfix.trans ((List.dropWhile_suffix _).trans (List.suffix_cons c s)).isInfix, hDigits⟩
  | case4 c s hRead hDigit ih =>
    rw [Duration.find?, hRead] at h
    simp only [hDigit] at h
    obtain ⟨hInfix, hDigits⟩ := ih h
    exact ⟨hInfix.trans (List.suffix_cons c s).isInfix, hDigits⟩

/-! ## Where a duration cannot be -/

theorem notMem_of_isDigit {run : List Char} (h : ∀ c ∈ run, isDigit c = true) : '\n' ∉ run := by
  intro hMem
  exact absurd (h '\n' hMem) (by decide)

theorem Duration.readTime?_split {s rest : List Char} {d : Duration} (h : Duration.readTime? s = some (d, rest)) :
    ∃ lead, s = lead ++ rest ∧ '\n' ∉ lead := by
  simp only [Duration.readTime?, Option.bind_eq_bind, Option.bind_eq_some_iff, Prod.exists] at h
  obtain ⟨minutes, _, hMinutes, _, hLetter, seconds, afterSeconds, hSeconds, hEnd⟩ := h
  obtain ⟨rfl, hMinutesDigits⟩ := eq_append_of_run? hMinutes
  obtain rfl := (after?_eq_some_iff _ _ _).mp hLetter
  obtain ⟨rfl, hSecondsDigits⟩ := eq_append_of_run? hSeconds
  have hWhole : '\n' ∉ minutes ++ ['m'] ++ seconds := by
    simp [notMem_of_isDigit hMinutesDigits, notMem_of_isDigit hSecondsDigits]
  split at hEnd
  · cases hEnd
    exact ⟨minutes ++ ['m'] ++ seconds, by simp, hWhole⟩
  · next afterPoint hPoint =>
    obtain ⟨⟨fraction, tail⟩, hFraction, hLast⟩ := Option.bind_eq_some_iff.mp hEnd
    obtain rfl := (after?_eq_some_iff _ _ _).mp hPoint
    obtain ⟨rfl, hFractionDigits⟩ := eq_append_of_run? hFraction
    cases hLast
    refine ⟨minutes ++ ['m'] ++ seconds ++ (['.'] ++ fraction), by simp, ?_⟩
    rw [List.mem_append, not_or]
    exact ⟨hWhole, by simp [notMem_of_isDigit hFractionDigits]⟩

theorem Duration.read?_split {s : List Char} {d : Duration} (h : Duration.read? s = some d) :
    ∃ lead rest, s = lead ++ rest ∧ '\n' ∉ lead ∧ ':' ∈ lead := by
  rw [Duration.read?] at h
  obtain ⟨⟨run, afterTime⟩, hTime, h⟩ := Option.bind_eq_some_iff.mp h
  obtain ⟨afterWords, hWords, -⟩ := Option.bind_eq_some_iff.mp h
  obtain ⟨lead, rfl, hLead⟩ := Duration.readTime?_split hTime
  rw [(after?_eq_some_iff _ _ _).mp hWords]
  refine ⟨lead ++ "s (executing steps: ".toList, afterWords, by simp, ?_, by simp⟩
  rw [List.mem_append, not_or]
  exact ⟨hLead, by decide⟩

theorem Duration.read?_eq_none {s : List Char} (h : ':' ∉ s) : Duration.read? s = none := by
  rw [Option.eq_none_iff_forall_ne_some]
  intro d hd
  obtain ⟨lead, rest, rfl, -, hColon⟩ := Duration.read?_split hd
  exact h (List.mem_append_left rest hColon)

theorem Duration.read?_line_eq_none {line : List Char} (h : ':' ∉ line) (rest : List Char) :
    Duration.read? (line ++ '\n' :: rest) = none := by
  rw [Option.eq_none_iff_forall_ne_some]
  intro d hd
  obtain ⟨lead, tail, hSplit, hFeed, hColon⟩ := Duration.read?_split hd
  rcases List.append_eq_append_iff.mp hSplit with ⟨more, rfl, hMore⟩ | ⟨more, rfl, -⟩
  · -- The lead goes beyond the line: it is the line, or it has the line feed.
    cases more with
    | nil =>
      rw [List.append_nil] at hColon
      exact h hColon
    | cons c more =>
      obtain ⟨rfl, -⟩ := List.cons.inj hMore
      exact hFeed (by simp)
  · exact h (List.mem_append_left more hColon)

theorem Duration.find?_eq_none {s : List Char} (h : ':' ∉ s) : Duration.find? s = none := by
  induction s using Duration.find?.induct with
  | case1 => rw [Duration.find?]
  | case2 c s d hRead => exact absurd hRead (by simp [Duration.read?_eq_none h])
  | case3 c s hRead hDigit ih =>
    rw [Duration.find?, hRead]
    simp only [hDigit, if_true]
    exact ih fun hMem => h (List.mem_cons_of_mem _ ((List.dropWhile_sublist _).mem hMem))
  | case4 c s hRead hDigit ih =>
    rw [Duration.find?, hRead]
    simp only [hDigit]
    exact ih fun hMem => h (List.mem_cons_of_mem _ hMem)

theorem Duration.find?_line {line : List Char} (h : ':' ∉ line) (rest : List Char) :
    Duration.find? (line ++ '\n' :: rest) = Duration.find? rest := by
  induction line using Duration.find?.induct with
  | case1 =>
    have hRead : Duration.read? ('\n' :: rest) = none := Duration.read?_line_eq_none List.not_mem_nil rest
    rw [List.nil_append, Duration.find?, hRead]
    rfl
  | case2 c s d hRead => exact absurd hRead (by simp [Duration.read?_eq_none h])
  | case3 c s _ hDigit ih =>
    have hRead : Duration.read? (c :: (s ++ '\n' :: rest)) = none := Duration.read?_line_eq_none h rest
    have hDrop : (s ++ '\n' :: rest).dropWhile isDigit = s.dropWhile isDigit ++ '\n' :: rest := by
      rw [List.dropWhile_append]
      split_ifs with hEmpty
      · rw [List.isEmpty_iff.mp hEmpty]
        rfl
      · rfl
    rw [List.cons_append, Duration.find?, hRead]
    simp only [hDigit, if_true, hDrop]
    exact ih fun hMem => h (List.mem_cons_of_mem _ ((List.dropWhile_sublist _).mem hMem))
  | case4 c s _ hDigit ih =>
    have hRead : Duration.read? (c :: (s ++ '\n' :: rest)) = none := Duration.read?_line_eq_none h rest
    rw [List.cons_append, Duration.find?, hRead]
    simp only [hDigit]
    exact ih fun hMem => h (List.mem_cons_of_mem _ hMem)

/-- The seconds of a run, with its minutes and its seconds each rounded to a double. -/
def Duration.length (d : Duration) : Float :=
  Decimal.nearest (numeralValue d.minutes * 60) 1 +
    Decimal.nearest (numeralValue (d.seconds ++ d.fraction)) (Nat.pow 10 d.fraction.length)

theorem Duration.elapsedSeconds_eq {d : Duration} (hLength : d.minutes.length ≤ Decimal.numeralLimit)
    (hBound : numeralValue d.minutes * 60 < Decimal.doubleBound) : d.elapsedSeconds = .ok d.length := by
  rw [Duration.elapsedSeconds, Decimal.readNumeral, if_neg (Nat.not_lt.mpr hLength)]
  simp only [bind, Except.bind, if_neg (Nat.not_le.mpr hBound)]
  rfl

end ScenarioRunner.Transcript
