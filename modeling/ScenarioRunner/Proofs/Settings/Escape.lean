import Mathlib.Data.List.Basic
import ScenarioRunner.Proofs.Settings.Lookup
import ScenarioRunner.Settings.Runner

/-!
# Faults that escape

A setting of a wrong shape is refused with a reason; every other fault escapes. Main statements: for each way in which a
setting is read, what is refused and what lets a fault escape. A value can be shown unless there is a whole number with
too many digits in it.
-/

namespace ScenarioRunner.Settings

open ScenarioRunner.Files

set_option autoImplicit false

/-! ## Computations that fail -/

section

variable {α β : Type}

def Refused (x : Except Fault α) : Prop :=
  ∃ reason, x = .error (.settings reason)

def Escapes (x : Except Fault α) : Prop :=
  ∃ fault, x = .error fault ∧ ∀ reason, fault ≠ .settings reason

theorem not_refused_ok (a : α) : ¬Refused (.ok a : Except Fault α) := nofun

theorem not_escapes_ok (a : α) : ¬Escapes (.ok a : Except Fault α) := nofun

theorem refused_error (reason : SettingsFault) : Refused (.error (.settings reason) : Except Fault α) :=
  ⟨reason, rfl⟩

theorem escapes_error {fault : Fault} (h : ∀ reason, fault ≠ .settings reason) :
    Escapes (.error fault : Except Fault α) :=
  ⟨fault, rfl, h⟩

theorem Escapes.not_refused {x : Except Fault α} (h : Escapes x) : ¬Refused x := by
  rintro ⟨reason, hReason⟩
  obtain ⟨fault, hFault, hOther⟩ := h
  rw [hReason] at hFault
  cases hFault
  exact hOther reason rfl

/-- There is a result, or a reason, or a fault that escapes. -/
theorem not_escapes_iff {x : Except Fault α} : ¬Escapes x ↔ (∃ a, x = .ok a) ∨ Refused x := by
  constructor
  · intro h
    cases x with
    | ok a => exact .inl ⟨a, rfl⟩
    | error fault =>
      by_cases hReason : ∃ reason, fault = .settings reason
      · obtain ⟨reason, rfl⟩ := hReason
        exact .inr (refused_error reason)
      · exact absurd (escapes_error (not_exists.mp hReason)) h
  · rintro (⟨a, rfl⟩ | hRefused) hEscapes
    · exact not_escapes_ok a hEscapes
    · exact hEscapes.not_refused hRefused

theorem escapes_bind_iff {x : Except Fault α} {f : α → Except Fault β} :
    Escapes (x >>= f) ↔ Escapes x ∨ ∃ a, x = .ok a ∧ Escapes (f a) := by
  cases x with
  | ok a =>
    constructor
    · exact fun h => .inr ⟨a, rfl, h⟩
    · rintro (h | ⟨_, ⟨⟩, h⟩)
      · exact absurd h (not_escapes_ok a)
      · exact h
  | error fault =>
    constructor
    · rintro ⟨_, ⟨⟩, h⟩
      exact .inl (escapes_error h)
    · rintro (⟨_, ⟨⟩, h⟩ | ⟨_, ⟨⟩, _⟩)
      exact escapes_error h

theorem not_refused_bind {x : Except Fault α} {f : α → Except Fault β} (hx : ¬Refused x)
    (hf : ∀ a, x = .ok a → ¬Refused (f a)) : ¬Refused (x >>= f) := by
  cases x with
  | ok a => exact hf a rfl
  | error fault =>
    rintro ⟨reason, ⟨⟩⟩
    exact hx (refused_error reason)

/-- A computation that is refused on one condition, lets a fault escape on another one, and else has a result. -/
structure Fails (refused escapes : Prop) (x : Except Fault α) : Prop where
  refused_iff : Refused x ↔ refused
  escapes_iff : Escapes x ↔ escapes

variable {P P' Q Q' : Prop} {x : Except Fault α} {f : α → Except Fault β}

theorem fails_ok (a : α) : Fails False False (.ok a) :=
  ⟨iff_false_intro (not_refused_ok a), iff_false_intro (not_escapes_ok a)⟩

theorem fails_settings (reason : SettingsFault) : Fails True False (.error (.settings reason) : Except Fault α) :=
  ⟨iff_true_intro (refused_error reason), iff_false_intro fun h => h.not_refused (refused_error reason)⟩

theorem fails_fault (fault : Fault) (h : ∀ reason, fault ≠ .settings reason) :
    Fails False True (.error fault : Except Fault α) :=
  ⟨iff_false_intro (escapes_error h).not_refused, iff_true_intro (escapes_error h)⟩

theorem Fails.congr (hx : Fails P Q x) (hRefused : P ↔ P') (hEscapes : Q ↔ Q') : Fails P' Q' x :=
  ⟨hx.refused_iff.trans hRefused, hx.escapes_iff.trans hEscapes⟩

theorem Fails.exists_ok (hx : Fails P Q x) (hP : ¬P) (hQ : ¬Q) : ∃ a, x = .ok a :=
  (not_escapes_iff.mp fun h => hQ (hx.escapes_iff.mp h)).resolve_right fun h => hP (hx.refused_iff.mp h)

theorem Fails.not_of_ok {a : α} (hx : Fails P Q x) (h : x = .ok a) : ¬P ∧ ¬Q := by
  subst h
  exact ⟨fun hP => not_refused_ok a (hx.refused_iff.mpr hP), fun hQ => not_escapes_ok a (hx.escapes_iff.mpr hQ)⟩

theorem Fails.exists_ok_iff (hx : Fails P Q x) : (∃ a, x = .ok a) ↔ ¬P ∧ ¬Q :=
  ⟨fun ⟨_, h⟩ => hx.not_of_ok h, fun ⟨hP, hQ⟩ => hx.exists_ok hP hQ⟩

theorem Fails.exists_ok_iff_not (hx : Fails False Q x) : (∃ a, x = .ok a) ↔ ¬Q := by
  rw [hx.exists_ok_iff, not_false_eq_true, true_and]

theorem Fails.exists_ok_iff_and {b c : Bool} (hx : Fails (b = false) (b = true ∧ c = true) x) :
    (∃ a, x = .ok a) ↔ b = true ∧ c = false := by
  rw [hx.exists_ok_iff, Bool.not_eq_false, not_and, Bool.not_eq_true]
  exact and_congr_right fun h => imp_iff_right h

theorem exists_bind_eq_ok_iff (hx : (∃ a, x = .ok a) ↔ P) (hf : ∀ a, x = .ok a → ((∃ b, f a = .ok b) ↔ Q)) :
    (∃ b, (x >>= f) = .ok b) ↔ P ∧ Q := by
  constructor
  · rintro ⟨b, h⟩
    obtain ⟨a, hOk, h⟩ := exists_of_bind_eq_ok h
    exact ⟨hx.mp ⟨a, hOk⟩, (hf a hOk).mp ⟨b, h⟩⟩
  · rintro ⟨hP, hQ⟩
    obtain ⟨a, hOk⟩ := hx.mpr hP
    obtain ⟨b, h⟩ := (hf a hOk).mpr hQ
    refine ⟨b, ?_⟩
    rw [hOk]
    exact h

theorem exists_bind_eq_ok_iff_of_eq {a : α} (hx : x = .ok a) : (∃ b, (x >>= f) = .ok b) ↔ ∃ b, f a = .ok b := by
  rw [hx]
  rfl

/-- The second computation comes to pass if the first one has a result. -/
theorem Fails.escapes_bind_iff (hx : Fails P Q x) (hf : ∀ a, x = .ok a → (Escapes (f a) ↔ Q')) :
    Escapes (x >>= f) ↔ Q ∨ ¬P ∧ Q' := by
  rw [Settings.escapes_bind_iff, hx.escapes_iff]
  constructor
  · rintro (hQ | ⟨a, hOk, h⟩)
    · exact .inl hQ
    · exact .inr ⟨(hx.not_of_ok hOk).1, (hf a hOk).mp h⟩
  · rintro (hQ | ⟨hP, hQ'⟩)
    · exact .inl hQ
    · by_cases hQ : Q
      · exact .inl hQ
      · obtain ⟨a, hOk⟩ := hx.exists_ok hP hQ
        exact .inr ⟨a, hOk, (hf a hOk).mpr hQ'⟩

theorem Fails.escapes_bind_iff_or (hx : Fails False Q x) (hf : ∀ a, x = .ok a → (Escapes (f a) ↔ Q')) :
    Escapes (x >>= f) ↔ Q ∨ Q' := by
  rw [hx.escapes_bind_iff hf, not_false_eq_true, true_and]

theorem Fails.bind (hx : Fails False Q x) (hf : ∀ a, x = .ok a → Fails False Q' (f a)) :
    Fails False (Q ∨ Q') (x >>= f) := by
  refine ⟨iff_false_intro ?_, ?_⟩
  · exact not_refused_bind hx.refused_iff.mp fun a h => (hf a h).refused_iff.mp
  · exact hx.escapes_bind_iff_or fun a h => (hf a h).escapes_iff

/-- A fault that escapes from whatever comes second escapes from both. -/
theorem Fails.escapes_bind (hx : Fails False Q x) (hf : ∀ a, x = .ok a → Escapes (f a)) : Escapes (x >>= f) := by
  by_cases hQ : Q
  · exact Settings.escapes_bind_iff.mpr (.inl (hx.escapes_iff.mpr hQ))
  · obtain ⟨a, hOk⟩ := hx.exists_ok id hQ
    exact Settings.escapes_bind_iff.mpr (.inr ⟨a, hOk, hf a hOk⟩)

theorem Escapes.fails_bind (hx : Escapes x) (f : α → Except Fault β) : Fails False True (x >>= f) := by
  obtain ⟨fault, rfl, h⟩ := hx
  exact fails_fault fault h

theorem Fails.map (hx : Fails False Q x) (g : α → β) : Fails False Q (x >>= fun a => .ok (g a)) :=
  (hx.bind fun a _ => fails_ok (g a)).congr Iff.rfl (by rw [or_false])

theorem fails_mapM {E : α → Prop} (hf : ∀ a, Fails False (E a) (f a)) (items : List α) :
    Fails False (∃ a ∈ items, E a) (items.mapM f) := by
  induction items with
  | nil => exact (fails_ok []).congr Iff.rfl (by simp)
  | cons a items ih =>
    rw [List.mapM_cons]
    refine ((hf a).bind fun b _ => ih.map fun bs => b :: bs).congr Iff.rfl ?_
    rw [List.exists_mem_cons_iff]

end

/-! ## Showing values -/

/-- A whole number with more digits than can be written. -/
def Scalar.isLong : Scalar → Bool
  | .int n => decide (Nat.pow 10 Decimal.numeralLimit ≤ n.natAbs)
  | _ => false

mutual

def Value.hasLong : Value → Bool
  | .scalar s => s.isLong
  | .list items => anyLong items
  | .mapping entries => anyLongEntry entries

def anyLong : List Value → Bool
  | [] => false
  | v :: rest => v.hasLong || anyLong rest

def anyLongEntry : Entries → Bool
  | [] => false
  | (key, v) :: rest => (key.isLong || v.hasLong) || anyLongEntry rest

end

theorem anyLong_iff (items : List Value) : anyLong items = true ↔ ∃ v ∈ items, v.hasLong = true := by
  induction items with
  | nil => simp [anyLong]
  | cons v items ih => rw [anyLong, Bool.or_eq_true, ih, List.exists_mem_cons_iff]

/-- A value with such a number counts as set. -/
theorem Value.isSet_of_hasLong {v : Value} (h : v.hasLong = true) : v.isSet = true := by
  cases v with
  | scalar s =>
    cases s with
    | int n =>
      have hPos : ∀ k, 0 < Nat.pow 10 k := fun k => Nat.pow_pos (Nat.succ_pos 9)
      rw [Value.hasLong, Scalar.isLong, decide_eq_true_iff] at h
      refine bne_iff_ne.mpr fun hZero => ?_
      rw [hZero] at h
      exact absurd (hPos _) (Nat.not_lt.mpr h)
    | _ => cases h
  | list items => cases items with
    | nil => cases h
    | cons v items => rfl
  | mapping entries => cases entries with
    | nil => cases h
    | cons entry entries => rfl

theorem fails_writeNumber (n : Int) : Fails False ((Scalar.int n).isLong = true) (Decimal.writeNumber n) := by
  rw [Scalar.isLong, decide_eq_true_iff, Decimal.writeNumber]
  split
  · next h =>
    exact (fails_fault .numberTooLong nofun).congr Iff.rfl (iff_of_true trivial h)
  · next h => exact (fails_ok _).congr Iff.rfl (iff_of_false id h)

theorem Scalar.fails_quoted (s : Scalar) : Fails False (s.isLong = true) s.quoted := by
  cases s with
  | int n => exact fails_writeNumber n
  | _ => exact (fails_ok _).congr Iff.rfl (iff_of_false id Bool.false_ne_true)

theorem Scalar.fails_shown (s : Scalar) : Fails False (s.isLong = true) s.shown := by
  cases s with
  | int n => exact fails_writeNumber n
  | _ => exact (fails_ok _).congr Iff.rfl (iff_of_false id Bool.false_ne_true)

mutual

theorem Value.fails_quoted : (v : Value) → Fails False (v.hasLong = true) v.quoted
  | .scalar s => s.fails_quoted
  | .list items => (fails_quotedItems items).map _
  | .mapping entries => (fails_quotedEntries entries).map _

theorem fails_quotedItems : (items : List Value) → Fails False (anyLong items = true) (quotedItems items)
  | [] => (fails_ok []).congr Iff.rfl (iff_of_false id Bool.false_ne_true)
  | v :: rest => by
    rw [anyLong, Bool.or_eq_true]
    exact v.fails_quoted.bind fun text _ => (fails_quotedItems rest).map fun texts => text :: texts

theorem fails_quotedEntries : (entries : Entries) → Fails False (anyLongEntry entries = true) (quotedEntries entries)
  | [] => (fails_ok []).congr Iff.rfl (iff_of_false id Bool.false_ne_true)
  | (key, v) :: rest => by
    rw [anyLongEntry, Bool.or_eq_true, Bool.or_eq_true, or_assoc]
    exact key.fails_quoted.bind fun name _ => v.fails_quoted.bind fun text _ =>
      (fails_quotedEntries rest).map fun texts => (name ++ ": " ++ text) :: texts

end

theorem Value.fails_shown (v : Value) : Fails False (v.hasLong = true) v.shown := by
  cases v with
  | scalar s => exact s.fails_shown
  | list items => exact Value.fails_quoted _
  | mapping entries => exact Value.fails_quoted _

theorem Value.fails_sought (v : Value) : Fails False (v.hasLong = true) v.sought := by
  cases v with
  | scalar s =>
    cases s with
    | halved points => exact (fails_ok _).congr Iff.rfl (iff_of_false id Bool.false_ne_true)
    | _ => exact Value.fails_shown _
  | list items => exact Value.fails_shown _
  | mapping entries => exact Value.fails_shown _

/-! ## Reading settings -/

def Value.isSection (v : Value) : Bool :=
  v.isMapping || !v.isSet

def Value.isListing : Value → Bool
  | .null => true
  | .list _ => true
  | v => v.isText

def Value.isPath (v : Value) : Bool :=
  v.isText || !v.isSet

theorem Value.isSection_of_not_isMapping {v : Value} (h : v.isMapping = false) : v.isSection = !v.isSet := by
  rw [Value.isSection, h, Bool.false_or]

/-- What is set and no section is refused. -/
theorem fails_ite_isSet {α : Type} {v : Value} (h : v.isMapping = false) (reason : SettingsFault) (a : α) :
    Fails (v.isSection = false) False (if v.isSet then .error (.settings reason) else .ok a) := by
  rw [Value.isSection_of_not_isMapping h, Bool.not_eq_false']
  split
  · next hSet => exact (fails_settings reason).congr (iff_of_true trivial hSet) Iff.rfl
  · next hSet => exact (fails_ok a).congr (iff_of_false id hSet) Iff.rfl

theorem fails_sectionOf (settings : Value) :
    Fails ((settings.getD sectionKey).isSection = false) False (sectionOf settings) := by
  rw [sectionOf]
  generalize settings.getD sectionKey = v
  cases v with
  | mapping entries => exact (fails_ok entries).congr (iff_of_false id nofun) Iff.rfl
  | scalar s => exact fails_ite_isSet rfl _ _
  | list items => exact fails_ite_isSet rfl _ _

section

variable {form : Value → Except Fault String}

theorem Value.hasLong_of_isText {v : Value} (h : v.isText = true) : v.hasLong = false := by
  cases v with
  | scalar s =>
    cases s with
    | text s => rfl
    | halved points => rfl
    | _ => cases h
  | _ => cases h

theorem fails_path? (hForm : ∀ v, Fails False (v.hasLong = true) (form v)) (v : Value) :
    Fails False (v.isPath = false) (path? form v) := by
  unfold path?
  rw [Value.isPath]
  cases hSet : v.isSet with
  | false => exact (fails_ok none).congr Iff.rfl (by simp)
  | true =>
    cases hText : v.isText with
    | false => exact (fails_fault .pathNotText nofun).congr Iff.rfl (by simp)
    | true => exact ((hForm v).map _).congr Iff.rfl (by simp [v.hasLong_of_isText hText])

theorem exists_path?_eq_ok_iff (hForm : ∀ v, Fails False (v.hasLong = true) (form v)) (v : Value) :
    (∃ p?, path? form v = .ok p?) ↔ v.isPath = true := by
  rw [(fails_path? hForm v).exists_ok_iff_not, Bool.not_eq_false]

theorem fails_textList (hForm : ∀ v, Fails False (v.hasLong = true) (form v)) (v : Value) (key : String) :
    Fails (v.isListing = false) (v.isListing = true ∧ v.hasLong = true) (textList form v key) := by
  unfold textList
  split
  · exact (fails_ok []).congr (iff_of_false id nofun) (iff_of_false id nofun)
  · next items =>
    refine (fails_mapM hForm items).congr (iff_of_false id nofun) ?_
    rw [Value.hasLong, anyLong_iff]
    exact (and_iff_right rfl).symm
  · next hNull hList =>
    have hListing : v.isListing = v.isText := by
      unfold Value.isListing
      split
      · exact absurd rfl hNull
      · exact absurd rfl (hList _)
      · rfl
    rw [hListing]
    split
    · next hText =>
      exact ((hForm v).map _).congr (iff_of_false id (by simp [hText])) (by simp [hText])
    · next hText =>
      exact (fails_settings _).congr (by simp [hText]) (by simp [hText])

end

theorem fails_shownEntries (entries : Entries) :
    Fails False (anyLongEntry entries = true) (shownEntries entries) := by
  induction entries with
  | nil => exact (fails_ok []).congr Iff.rfl (iff_of_false id Bool.false_ne_true)
  | cons entry entries ih =>
    rw [anyLongEntry, Bool.or_eq_true, Bool.or_eq_true, or_assoc]
    exact entry.1.fails_shown.bind fun name _ => entry.2.fails_shown.bind fun text _ =>
      ih.map fun shown => (name, text) :: shown

theorem fails_configuredVariables (v : Value) :
    Fails (v.isSection = false) (v.isSection = true ∧ v.hasLong = true) (configuredVariables v) := by
  have hOther (h : v.isMapping = false) : False ↔ v.isSection = true ∧ v.hasLong = true := by
    refine iff_of_false id fun ⟨hSection, hLong⟩ => ?_
    rw [Value.isSection_of_not_isMapping h, v.isSet_of_hasLong hLong] at hSection
    cases hSection
  cases v with
  | mapping entries =>
    exact (fails_shownEntries entries).congr (iff_of_false id nofun) (and_iff_right rfl).symm
  | scalar s => exact (fails_ite_isSet rfl _ _).congr Iff.rfl (hOther rfl)
  | list items => exact (fails_ite_isSet rfl _ _).congr Iff.rfl (hOther rfl)

theorem fails_shownOr (v : Value) (default : String) : Fails False (v.hasLong = true) (shownOr v default) := by
  rw [shownOr]
  split
  · exact v.fails_shown
  · next hSet => exact (fails_ok _).congr Iff.rfl (iff_of_false id fun hLong => hSet (v.isSet_of_hasLong hLong))

theorem exists_shownOr_eq_ok_iff (v : Value) (default : String) :
    (∃ text, shownOr v default = .ok text) ↔ v.hasLong = false := by
  rw [(fails_shownOr v default).exists_ok_iff_not, Bool.not_eq_true]

/-- Once the value has been shown, the text is taken or refused. -/
theorem escapes_flag_iff (v : Value) (key : String) : Escapes (flag v key) ↔ v.hasLong = true := by
  unfold flag
  split
  · next b => exact iff_of_false (not_escapes_ok b) nofun
  · exact iff_of_false (not_escapes_ok false) nofun
  · have hTaken : ∀ shown, v.shown = .ok shown → ∀ word : String, Escapes (do
        if trueTexts.contains word then return true
        else if falseTexts.contains word then return false
        else throw (.settings (.notFlag key (← v.quoted))) : Except Fault Bool) ↔ False := by
      intro shown hShown word
      have hLong := (v.fails_shown.not_of_ok hShown).2
      refine iff_false_intro ?_
      split
      · exact not_escapes_ok true
      · split
        · exact not_escapes_ok false
        · obtain ⟨quoted, hQuoted⟩ := v.fails_quoted.exists_ok id hLong
          rw [hQuoted]
          exact fun h => h.not_refused (refused_error _)
    rw [v.fails_shown.escapes_bind_iff fun shown hShown => hTaken shown hShown _, and_false, or_false]

/-- Nothing, or what is shown as one of the words for a truth value. -/
def Value.IsFlag (v : Value) : Prop :=
  v = .null ∨ ∃ shown, v.shown = .ok shown ∧
    String.ofList ((Text.trim shown.toList).map Char.toLower) ∈ trueTexts ++ falseTexts

theorem exists_flag_eq_ok_iff (v : Value) (key : String) : (∃ b, flag v key = .ok b) ↔ v.IsFlag := by
  unfold flag Value.IsFlag
  split
  · next b =>
    refine iff_of_true ⟨b, rfl⟩ (.inr ?_)
    cases b
    all_goals exact ⟨_, rfl, by decide⟩
  · exact iff_of_true ⟨false, rfl⟩ (.inl rfl)
  · next hNull =>
    rw [or_iff_right hNull]
    constructor
    · rintro ⟨b, h⟩
      obtain ⟨shown, hShown, h⟩ := exists_of_bind_eq_ok h
      refine ⟨shown, hShown, List.mem_append.mpr ?_⟩
      dsimp only at h
      split at h
      · next hTrue => exact .inl (List.contains_iff_mem.mp hTrue)
      · split at h
        · next hFalse => exact .inr (List.contains_iff_mem.mp hFalse)
        · obtain ⟨_, -, h⟩ := exists_of_bind_eq_ok h
          cases h
    · rintro ⟨shown, hShown, hWord⟩
      rw [hShown]
      dsimp only [bind, Except.bind]
      split
      · exact ⟨true, rfl⟩
      · next hTrue =>
        rw [if_pos (List.contains_iff_mem.mpr ((List.mem_append.mp hWord).resolve_left
          fun h => hTrue (List.contains_iff_mem.mpr h)))]
        exact ⟨false, rfl⟩

end ScenarioRunner.Settings
