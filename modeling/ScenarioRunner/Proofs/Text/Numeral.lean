import Mathlib.Data.List.Induction
import Mathlib.Data.List.TakeWhile
import Mathlib.Tactic.Common
import ScenarioRunner.Decimal.Double
import ScenarioRunner.Decimal.Limit
import ScenarioRunner.Text.Blank
import ScenarioRunner.Text.Lead
import ScenarioRunner.Text.TerminalCodes

/-!
# Numerals in a text

A numeral is read up to the first character that is no digit, and its value has no more digits than it has itself. The
decimal form of a number is a numeral with the value of the number, and it can be read back if the number has no more
digits than the limit.
-/

namespace ScenarioRunner.Text

set_option autoImplicit false

theorem takeWhile_append {p : Char → Bool} {run rest : List Char} (hRun : ∀ c ∈ run, p c = true)
    (hRest : ∀ c ∈ rest.head?, p c = false) : (run ++ rest).takeWhile p = run := by
  rw [List.takeWhile_append_of_pos hRun]
  cases rest with
  | nil => simp
  | cons c rest => simp [hRest c rfl]

theorem dropWhile_append {p : Char → Bool} {run rest : List Char} (hRun : ∀ c ∈ run, p c = true)
    (hRest : ∀ c ∈ rest.head?, p c = false) : (run ++ rest).dropWhile p = rest := by
  rw [List.dropWhile_append_of_pos hRun]
  cases rest with
  | nil => rfl
  | cons c rest => simp [hRest c rfl]

/-- A run is read up to the first character outside its class. -/
theorem run?_append {p : Char → Bool} {run rest : List Char} (hNonempty : run ≠ []) (hRun : ∀ c ∈ run, p c = true)
    (hRest : ∀ c ∈ rest.head?, p c = false) : run? p (run ++ rest) = some (run, rest) := by
  rw [run?, takeWhile_append hRun hRest, dropWhile_append hRun hRest]
  cases run with
  | nil => exact absurd rfl hNonempty
  | cons c run => rfl

theorem eq_append_of_run? {p : Char → Bool} {s run rest : List Char} (h : run? p s = some (run, rest)) :
    s = run ++ rest ∧ ∀ c ∈ run, p c = true := by
  rw [run?] at h
  split at h
  · cases h
  · cases h
    exact ⟨List.takeWhile_append_dropWhile.symm, fun c hc => List.mem_takeWhile_imp hc⟩

theorem run?_eq_none {p : Char → Bool} {s : List Char} (h : ∀ c ∈ s.head?, p c = false) : run? p s = none := by
  cases s with
  | nil => rfl
  | cons c s => simp [run?, h c rfl]

theorem after?_append (lead rest : List Char) : after? lead (lead ++ rest) = some rest :=
  (after?_eq_some_iff lead (lead ++ rest) rest).mpr rfl

theorem afterFirst?_append {stop : Char} {s : List Char} (h : stop ∉ s) (rest : List Char) :
    afterFirst? stop (s ++ stop :: rest) = some rest := by
  induction s with
  | nil => simp [afterFirst?]
  | cons c s ih =>
    rw [List.mem_cons, not_or] at h
    rw [List.cons_append, afterFirst?, if_neg (Ne.symm h.1), ih h.2]

theorem afterFirst?_eq_none {stop : Char} {s : List Char} (h : stop ∉ s) : afterFirst? stop s = none := by
  induction s with
  | nil => rfl
  | cons c s ih =>
    rw [List.mem_cons, not_or] at h
    rw [afterFirst?, if_neg (Ne.symm h.1), ih h.2]

/-- A cut at the first of some character is determined by the text. -/
theorem eq_and_eq_of_first_eq {stop : Char} {first second rest others : List Char} (hFirst : stop ∉ first)
    (hSecond : stop ∉ second) (h : first ++ stop :: rest = second ++ stop :: others) :
    first = second ∧ rest = others := by
  have hRest : rest = others := by
    have hAfter := afterFirst?_append hFirst rest
    rw [h, afterFirst?_append hSecond others, Option.some.injEq] at hAfter
    exact hAfter.symm
  subst hRest
  exact ⟨List.append_cancel_right h, rfl⟩

/-- A cut at the last of some character is determined by the text. -/
theorem eq_and_eq_of_last_eq {c : Char} {first second rest others : List Char} (hRest : c ∉ rest)
    (hOthers : c ∉ others) (h : first ++ c :: rest = second ++ c :: others) : first = second ∧ rest = others := by
  rcases List.append_eq_append_iff.mp h with ⟨more, rfl, hMore⟩ | ⟨more, rfl, hMore⟩
  · cases more with
    | nil => simpa using hMore
    | cons d more =>
      obtain ⟨rfl, rfl⟩ := List.cons.inj hMore
      exact absurd (by simp) hRest
  · cases more with
    | nil => simpa using hMore.symm
    | cons d more =>
      obtain ⟨rfl, rfl⟩ := List.cons.inj hMore
      exact absurd (by simp) hOthers

/-! ## Digits among the other characters -/

theorem exists_zero_of_isDigit {c : Char} (h : isDigit c = true) :
    ∃ first ∈ digitZeros, first ≤ c.toNat ∧ c.toNat < first + 10 := by
  rw [isDigit, digitValue?] at h
  split_ifs at h with hAscii hDigit
  · obtain ⟨hLow, hHigh⟩ := toNat_of_ascii hDigit
    exact ⟨48, by decide, hLow, Nat.lt_succ_of_le hHigh⟩
  · simp at h
  · rw [Option.isSome_map] at h
    obtain ⟨first, hFound⟩ := Option.isSome_iff_exists.mp h
    have hHolds := List.find?_some hFound
    simp only [Bool.and_eq_true, decide_eq_true_eq] at hHolds
    exact ⟨first, List.mem_of_find?_eq_some hFound, hHolds⟩

/-- No digit lies among the control characters, the blanks and the zero-width characters. -/
theorem toNat_of_isDigit {c : Char} (h : isDigit c = true) :
    (48 ≤ c.toNat ∧ c.toNat < 58) ∨ (1632 ≤ c.toNat ∧ c.toNat < 5760) ∨ (6112 ≤ c.toNat ∧ c.toNat < 8192) ∨
      (42528 ≤ c.toNat ∧ c.toNat < 65279) ∨ 65296 ≤ c.toNat := by
  have hZeros : ∀ first ∈ digitZeros, first = 48 ∨ (1632 ≤ first ∧ first + 10 ≤ 5760) ∨
      (6112 ≤ first ∧ first + 10 ≤ 8192) ∨ (42528 ≤ first ∧ first + 10 ≤ 65279) ∨ 65296 ≤ first := by decide
  obtain ⟨first, hMem, hLow, hHigh⟩ := exists_zero_of_isDigit h
  have := hZeros first hMem
  omega

theorem isBlank_of_isDigit {c : Char} (h : isDigit c = true) : isBlank c = false := by
  have := toNat_of_isDigit h
  simp only [isBlank, Bool.or_eq_false_iff, Bool.and_eq_false_iff, decide_eq_false_iff_not, beq_eq_false_iff_ne]
  omega

theorem isZeroWidth_of_isDigit {c : Char} (h : isDigit c = true) : isZeroWidth c = false := by
  have := toNat_of_isDigit h
  simp only [isZeroWidth, Bool.or_eq_false_iff, Bool.and_eq_false_iff, decide_eq_false_iff_not, beq_eq_false_iff_ne]
  omega

theorem head_cons {p : Char → Bool} {c : Char} (h : p c = false) (rest : List Char) :
    ∀ d ∈ (c :: rest).head?, p d = false := by
  intro d hd
  cases hd
  exact h

theorem run?_digits {run : List Char} {c : Char} (hNonempty : run ≠ []) (hRun : ∀ d ∈ run, isDigit d = true)
    (hc : isDigit c = false) (rest : List Char) : run? isDigit (run ++ c :: rest) = some (run, c :: rest) :=
  run?_append hNonempty hRun (head_cons hc rest)

theorem isDigit_head_append {run : List Char} (hNonempty : run ≠ []) (hRun : ∀ d ∈ run, isDigit d = true)
    (rest : List Char) : ∀ c ∈ (run ++ rest).head?, isDigit c = true := by
  intro c hc
  cases run with
  | nil => exact absurd rfl hNonempty
  | cons first run =>
    cases hc
    exact hRun _ List.mem_cons_self

/-! ## Values -/

theorem digitValue?_lt {c : Char} {d : Nat} (h : digitValue? c = some d) : d < 10 := by
  rw [digitValue?] at h
  split_ifs at h with hAscii hDigit
  · cases h
    have := toNat_of_ascii hDigit
    omega
  · obtain ⟨first, hFound, rfl⟩ := Option.map_eq_some_iff.mp h
    have hHolds := List.find?_some hFound
    simp only [Bool.and_eq_true, decide_eq_true_eq] at hHolds
    omega

theorem numeralValue_concat (digits : List Char) (c : Char) :
    numeralValue (digits ++ [c]) = numeralValue digits * 10 + (digitValue? c).getD 0 := by
  rw [numeralValue, List.foldl_append]
  rfl

theorem numeralValue_lt (digits : List Char) : numeralValue digits < Nat.pow 10 digits.length := by
  induction digits using List.reverseRecOn with
  | nil => decide
  | append_singleton digits c ih =>
    have hDigit : (digitValue? c).getD 0 < 10 := by
      cases hValue : digitValue? c with
      | none => decide
      | some d => exact digitValue?_lt hValue
    have hPower : Nat.pow 10 (digits.length + 1) = Nat.pow 10 digits.length * 10 := rfl
    rw [numeralValue_concat, List.length_append, List.length_singleton, hPower]
    omega

theorem numeralValue_lt_of_length_le {digits : List Char} {size : Nat} (h : digits.length ≤ size) :
    numeralValue digits < Nat.pow 10 size :=
  Nat.lt_of_lt_of_le (numeralValue_lt digits) (Nat.pow_le_pow_right (by decide) h)

/-! ## Decimal forms -/

theorem isDigit_of_mem_toDigits {n : Nat} {c : Char} (h : c ∈ Nat.toDigits 10 n) : isDigit c = true :=
  isDigit_of_ascii (Nat.isDigit_of_mem_toDigits (by decide) (by decide) h)

theorem isDigit_of_mem_padLeft {width n : Nat} {c : Char}
    (h : c ∈ Decimal.padLeft width '0' (Nat.toDigits 10 n)) : c.isDigit = true := by
  rcases List.mem_append.mp h with h | h
  · rw [List.eq_of_mem_replicate h]
    decide
  · exact Nat.isDigit_of_mem_toDigits (by decide) (by decide) h

theorem digitValue?_of_isDigit {c : Char} (h : c.isDigit = true) : digitValue? c = some (c.toNat - 48) := by
  have hBelow : c.toNat < 128 := by
    have := toNat_of_ascii h
    omega
  rw [digitValue?, if_pos hBelow, if_pos h]

theorem foldl_digits {s : List Char} (h : ∀ c ∈ s, c.isDigit = true) (start : Nat) :
    s.foldl (fun n c => n * 10 + (digitValue? c).getD 0) start = Nat.ofDigitChars 10 s start := by
  induction s generalizing start with
  | nil => rfl
  | cons c s ih =>
    have hStep : start * 10 + (digitValue? c).getD 0 = 10 * start + (c.toNat - '0'.toNat) := by
      rw [digitValue?_of_isDigit (h c List.mem_cons_self), Nat.mul_comm]
      rfl
    rw [List.foldl_cons, Nat.ofDigitChars_cons, hStep, ih fun d hd => h d (List.mem_cons_of_mem _ hd)]

theorem numeralValue_toDigits (n : Nat) : numeralValue (Nat.toDigits 10 n) = n := by
  rw [numeralValue, foldl_digits fun c hc => Nat.isDigit_of_mem_toDigits (by decide) (by decide) hc]
  exact Nat.ofDigitChars_ten_toDigits

theorem length_toDigits_le {n size : Nat} (hSize : 0 < size) (h : n < Nat.pow 10 size) :
    (Nat.toDigits 10 n).length ≤ size :=
  (Nat.length_toDigits_le_iff (by decide) hSize).mpr h

theorem readNumeral_toDigits {n : Nat} (h : n < Nat.pow 10 Decimal.numeralLimit) :
    Decimal.readNumeral (Nat.toDigits 10 n) = .ok n := by
  have hLength := length_toDigits_le (by decide) h
  rw [Decimal.readNumeral, if_neg (Nat.not_lt.mpr hLength), numeralValue_toDigits]

end ScenarioRunner.Text
