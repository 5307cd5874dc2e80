import Mathlib.Algebra.BigOperators.Group.List.Basic
import Mathlib.Algebra.GroupWithZero.Nat
import Mathlib.Data.List.Induction
import ScenarioRunner.Proofs.Text.Numeral
import ScenarioRunner.Transcript.Tally

/-!
# What a tally counts

A breakdown is a list of shares, each a number and a word. Main statements: the tally of a breakdown counts for every
word the total of its shares, and the tally of a single scenario names the only word that has one.
-/

namespace ScenarioRunner.Transcript

open ScenarioRunner.Text

set_option autoImplicit false

structure Share where
  number : Nat
  word : String
deriving DecidableEq

def total (shares : List Share) : Nat :=
  (shares.map Share.number).sum

def totalOf (word : String) (shares : List Share) : Nat :=
  total (shares.filter fun s => s.word = word)

@[simp] theorem total_nil : total [] = 0 := rfl

@[simp] theorem total_cons (s : Share) (shares : List Share) : total (s :: shares) = s.number + total shares := by
  simp [total]

@[simp] theorem totalOf_nil (word : String) : totalOf word [] = 0 := rfl

theorem totalOf_cons (word : String) (s : Share) (shares : List Share) :
    totalOf word (s :: shares) = (if s.word = word then s.number else 0) + totalOf word shares := by
  by_cases h : s.word = word <;> simp [totalOf, h]

theorem total_perm {shares others : List Share} (h : shares.Perm others) : total shares = total others :=
  (h.map Share.number).sum_eq

theorem totalOf_perm {shares others : List Share} (word : String) (h : shares.Perm others) :
    totalOf word shares = totalOf word others :=
  total_perm (h.filter _)

theorem number_le_totalOf {s : Share} {shares : List Share} (h : s ∈ shares) : s.number ≤ totalOf s.word shares := by
  induction shares with
  | nil => cases h
  | cons first shares ih =>
    rw [totalOf_cons]
    rcases List.mem_cons.mp h with rfl | h
    · simp
    · have := ih h
      omega

theorem totalOf_add_totalOf_le {word other : String} (h : word ≠ other) (shares : List Share) :
    totalOf word shares + totalOf other shares ≤ total shares := by
  induction shares with
  | nil => simp
  | cons s shares ih =>
    rw [totalOf_cons, totalOf_cons, total_cons]
    split_ifs with hWord hOther
    · exact absurd (hWord.symm.trans hOther) h
    · omega
    · omega
    · omega

theorem totalOf_le_total (word : String) (shares : List Share) : totalOf word shares ≤ total shares := by
  induction shares with
  | nil => simp
  | cons s shares ih =>
    rw [totalOf_cons, total_cons]
    split_ifs <;> omega

theorem number_le_total {s : Share} {shares : List Share} (h : s ∈ shares) : s.number ≤ total shares :=
  Nat.le_trans (number_le_totalOf h) (totalOf_le_total s.word shares)

/-- A total of one is one share of one, and every other share of one has the same word. -/
theorem exists_share_of_total_eq_one {shares : List Share} (h : total shares = 1) :
    ∃ s ∈ shares, s.number = 1 ∧ ∀ word, totalOf word shares = 1 ↔ word = s.word := by
  have hPositive : ∃ s ∈ shares, s.number ≠ 0 := by
    by_contra hNone
    have hZero : ∀ n ∈ shares.map Share.number, n = 0 := by
      intro n hn
      obtain ⟨s, hs, rfl⟩ := List.mem_map.mp hn
      by_contra hs'
      exact hNone ⟨s, hs, hs'⟩
    rw [total, List.sum_eq_zero hZero] at h
    cases h
  obtain ⟨s, hs, hNumber⟩ := hPositive
  have hWord := number_le_totalOf hs
  have hTotal := totalOf_le_total s.word shares
  refine ⟨s, hs, by omega, fun word => ⟨fun hOne => ?_, ?_⟩⟩
  · by_contra hOther
    have := totalOf_add_totalOf_le hOther shares
    omega
  · rintro rfl
    omega

/-! ## Tallies -/

def tallyOf (shares : List Share) : Tally :=
  shares.foldl (fun t s => t.add s.word s.number) []

theorem Tally.count_nil (word : String) : Tally.count [] word = 0 := rfl

theorem Tally.count_cons (first : String × Nat) (t : Tally) (word : String) :
    Tally.count (first :: t) word = if word = first.1 then first.2 else Tally.count t word := by
  rw [Tally.count, List.lookup_cons]
  by_cases h : word = first.1
  · simp [h]
  · rw [if_neg h, beq_false_of_ne h]
    rfl

theorem Tally.count_add (t : Tally) (word other : String) (n : Nat) :
    (t.add word n).count other = t.count other + if word = other then n else 0 := by
  induction t with
  | nil =>
    rw [Tally.add, Tally.count_cons, Tally.count_nil]
    by_cases h : word = other
    · simp [h]
    · simp [h, Ne.symm h]
  | cons first t ih =>
    obtain ⟨key, m⟩ := first
    rw [Tally.add]
    by_cases hKey : key = word
    · subst hKey
      rw [if_pos rfl, Tally.count_cons, Tally.count_cons]
      by_cases h : other = key
      · simp [h]
      · simp [h, Ne.symm h]
    · rw [if_neg hKey, Tally.count_cons, Tally.count_cons, ih]
      by_cases h : other = key
      · subst h
        simp [Ne.symm hKey]
      · simp [h]

theorem Tally.keys_add (t : Tally) (word : String) (n : Nat) :
    (t.add word n).map Prod.fst = if word ∈ t.map Prod.fst then t.map Prod.fst else t.map Prod.fst ++ [word] := by
  induction t with
  | nil => rfl
  | cons first t ih =>
    obtain ⟨key, m⟩ := first
    rw [Tally.add]
    by_cases hKey : key = word
    · simp [hKey]
    · by_cases hMem : word ∈ t.map Prod.fst
      · rw [if_pos hMem] at ih
        simp [hKey, ih, hMem, Ne.symm hKey]
      · rw [if_neg hMem] at ih
        simp [hKey, ih, hMem, Ne.symm hKey]

theorem Tally.nodup_add {t : Tally} (h : (t.map Prod.fst).Nodup) (word : String) (n : Nat) :
    ((t.add word n).map Prod.fst).Nodup := by
  rw [Tally.keys_add]
  split_ifs with hMem
  · exact h
  · refine List.nodup_append.mpr ⟨h, by simp, ?_⟩
    intro key hKey other hOther hEq
    rw [List.mem_singleton] at hOther
    exact hMem (hOther ▸ hEq ▸ hKey)

theorem tallyOf_concat (shares : List Share) (s : Share) :
    tallyOf (shares ++ [s]) = (tallyOf shares).add s.word s.number := by
  rw [tallyOf, List.foldl_concat]
  rfl

theorem nodup_tallyOf (shares : List Share) : ((tallyOf shares).map Prod.fst).Nodup := by
  induction shares using List.reverseRecOn with
  | nil => simp [tallyOf]
  | append_singleton shares s ih =>
    rw [tallyOf_concat]
    exact Tally.nodup_add ih s.word s.number

theorem totalOf_concat (word : String) (shares : List Share) (s : Share) :
    totalOf word (shares ++ [s]) = totalOf word shares + if s.word = word then s.number else 0 := by
  have := totalOf_perm word (List.perm_append_singleton s shares)
  rw [this, totalOf_cons, Nat.add_comm]

theorem count_tallyOf (word : String) (shares : List Share) : (tallyOf shares).count word = totalOf word shares := by
  induction shares using List.reverseRecOn with
  | nil => rfl
  | append_singleton shares s ih => rw [tallyOf_concat, Tally.count_add, totalOf_concat, ih]

theorem Tally.count_of_mem {t : Tally} (h : (t.map Prod.fst).Nodup) {word : String} {n : Nat} (hMem : (word, n) ∈ t) :
    t.count word = n := by
  induction t with
  | nil => cases hMem
  | cons first t ih =>
    rw [List.map_cons, List.nodup_cons] at h
    rw [Tally.count_cons]
    rcases List.mem_cons.mp hMem with rfl | hMem
    · simp
    · have hOther : word ≠ first.1 := fun hEq => h.1 (hEq ▸ List.mem_map_of_mem hMem)
      rw [if_neg hOther, ih h.2 hMem]

theorem Tally.mem_of_count_ne_zero {t : Tally} {word : String} (h : t.count word ≠ 0) : (word, t.count word) ∈ t := by
  induction t with
  | nil => exact absurd rfl h
  | cons first t ih =>
    obtain ⟨key, m⟩ := first
    rw [Tally.count_cons] at h ⊢
    split_ifs at h ⊢ with hKey
    · subst hKey
      exact List.mem_cons_self
    · exact List.mem_cons_of_mem _ (ih h)

theorem Tally.single?_eq_some {t : Tally} (h : (t.map Prod.fst).Nodup) {word : String}
    (hOnly : ∀ other, t.count other = 1 ↔ other = word) : t.single? = some word := by
  have hMem : (word, 1) ∈ t := by
    have hCount : t.count word = 1 := (hOnly word).mpr rfl
    rw [← hCount]
    exact Tally.mem_of_count_ne_zero (by omega)
  rw [Tally.single?]
  cases hFound : t.find? (fun entry => entry.2 == 1) with
  | none => simpa using List.find?_eq_none.mp hFound (word, 1) hMem
  | some entry =>
    obtain ⟨other, n⟩ := entry
    have hn : n = 1 := by simpa using List.find?_some hFound
    have hOther := Tally.count_of_mem h (List.mem_of_find?_eq_some hFound)
    rw [(hOnly other).mp (hOther.trans hn)]
    rfl

end ScenarioRunner.Transcript
