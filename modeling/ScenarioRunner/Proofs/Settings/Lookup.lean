import Mathlib.Data.List.Basic
import ScenarioRunner.Settings.Layer

/-!
# Looking up a key

A key is looked up by what it is as a key. Main statements: what a key has in a layered mapping is determined by what it
has in the two mappings, and substitution changes the value of a key and nothing else.
-/

namespace ScenarioRunner.Settings

set_option autoImplicit false

section

variable {α β : Type}

theorem Scalar.isSameKey_iff (s t : Scalar) : s.isSameKey t = true ↔ s.key = t.key :=
  beq_iff_eq

/-- A text is the same key as itself only. -/
theorem Scalar.isSameKey_text_iff (s : Scalar) (text : String) : s.isSameKey (.text text) = true ↔ s = .text text := by
  rw [Scalar.isSameKey_iff]
  cases s with
  | float x =>
    rw [Scalar.key]
    cases Decimal.whole? x <;> simp [Scalar.key]
  | moment m offset => cases offset <;> simp [Scalar.key]
  | _ => simp [Scalar.key]

theorem Scalar.isSameKey_comm (s t : Scalar) : s.isSameKey t = t.isSameKey s := by
  rw [Bool.eq_iff_iff, Scalar.isSameKey_iff, Scalar.isSameKey_iff, eq_comm]

theorem isSameKey_congr_right {s t : Scalar} (h : s.isSameKey t = true) (other : Scalar) :
    other.isSameKey s = other.isSameKey t := by
  rw [Scalar.isSameKey, Scalar.isSameKey, (Scalar.isSameKey_iff s t).mp h]

theorem isSameKey_congr_left {s t : Scalar} (h : s.isSameKey t = true) (other : Scalar) :
    s.isSameKey other = t.isSameKey other := by
  rw [Scalar.isSameKey, Scalar.isSameKey, (Scalar.isSameKey_iff s t).mp h]

@[simp] theorem valueOf?_nil (key : Scalar) : valueOf? ([] : List (Scalar × α)) key = none := rfl

theorem valueOf?_cons (entry : Scalar × α) (entries : List (Scalar × α)) (key : Scalar) :
    valueOf? (entry :: entries) key = if entry.1.isSameKey key then some entry.2 else valueOf? entries key := by
  rw [valueOf?, List.find?_cons]
  cases entry.1.isSameKey key <;> rfl

theorem valueOf?_congr {s t : Scalar} (h : s.isSameKey t = true) (entries : List (Scalar × α)) :
    valueOf? entries s = valueOf? entries t := by
  induction entries with
  | nil => rfl
  | cons entry entries ih => rw [valueOf?_cons, valueOf?_cons, isSameKey_congr_right h, ih]

theorem valueOf?_append (entries more : List (Scalar × α)) (key : Scalar) :
    valueOf? (entries ++ more) key = (valueOf? entries key).or (valueOf? more key) := by
  induction entries with
  | nil => rfl
  | cons entry entries ih =>
    rw [List.cons_append, valueOf?_cons, valueOf?_cons, ih]
    split <;> rfl

/-- Values may change by key, as long as one key has one change. -/
theorem valueOf?_map (change : Scalar → α → β) (entries : List (Scalar × α)) (key : Scalar)
    (h : ∀ other, other.isSameKey key = true → change other = change key) :
    valueOf? (entries.map fun entry => (entry.1, change entry.1 entry.2)) key =
      (valueOf? entries key).map (change key) := by
  induction entries with
  | nil => rfl
  | cons entry entries ih =>
    rw [List.map_cons, valueOf?_cons, valueOf?_cons, ih]
    split
    · next hKey => rw [h entry.1 hKey, Option.map_some]
    · rfl

theorem valueOf?_filter (keeps : Scalar → Bool) (entries : List (Scalar × α)) (key : Scalar)
    (h : ∀ other, other.isSameKey key = true → keeps other = keeps key) :
    valueOf? (entries.filter fun entry => keeps entry.1) key = if keeps key then valueOf? entries key else none := by
  induction entries with
  | nil => simp
  | cons entry entries ih =>
    rw [List.filter_cons, valueOf?_cons]
    by_cases hKey : entry.1.isSameKey key = true
    · rw [h entry.1 hKey, if_pos hKey]
      split
      · rw [valueOf?_cons, if_pos hKey]
      · next hKeeps => rw [ih, if_neg hKeeps]
    · rw [if_neg hKey, ← ih]
      split
      · rw [valueOf?_cons, if_neg hKey]
      · rfl

theorem mem_of_valueOf?_eq_some {entries : List (Scalar × α)} {key : Scalar} {v : α} (h : valueOf? entries key = some v) :
    ∃ entry ∈ entries, entry.1.isSameKey key = true ∧ entry.2 = v := by
  obtain ⟨entry, hFind, hValue⟩ := Option.map_eq_some_iff.mp h
  have hKey := List.find?_some hFind
  exact ⟨entry, List.mem_of_find?_eq_some hFind, hKey, hValue⟩

end

/-! ## Layers -/

def layered (combine : Value → Value → Value) : Option Value → Option Value → Option Value
  | some v, some w => some (combine v w)
  | some v, none => some v
  | none, w => w

theorem valueOf?_newEntries (lower upper : Entries) (key : Scalar) :
    valueOf? (newEntries lower upper) key = if (valueOf? lower key).isNone then valueOf? upper key else none :=
  valueOf?_filter (fun other => (valueOf? lower other).isNone) upper key fun other h => by rw [valueOf?_congr h]

theorem valueOf?_layer (combine : Value → Value → Value) (lower upper : Entries) (key : Scalar) :
    valueOf? (layer combine lower upper) key = layered combine (valueOf? lower key) (valueOf? upper key) := by
  have hShared := valueOf?_map (fun other v => (valueOf? upper other).elim v (combine v)) lower key fun other h => by
    rw [valueOf?_congr h]
  have hLayer : layer combine lower upper =
      lower.map (fun entry => (entry.1, (valueOf? upper entry.1).elim entry.2 (combine entry.2))) ++
        newEntries lower upper := by
    refine congrArg (· ++ _) (List.map_congr_left fun entry _ => ?_)
    cases valueOf? upper entry.1 <;> rfl
  rw [hLayer, valueOf?_append, valueOf?_newEntries, hShared]
  cases valueOf? lower key <;> cases valueOf? upper key <;> rfl

theorem valueOf?_updateEntries (lower upper : Entries) (key : Scalar) :
    valueOf? (updateEntries lower upper) key = (valueOf? upper key).or (valueOf? lower key) := by
  rw [updateEntries, valueOf?_layer]
  cases valueOf? lower key <;> cases valueOf? upper key <;> rfl

theorem valueOf?_mergeEntries (lower upper : Entries) (key : Scalar) :
    valueOf? (mergeEntries lower upper) key = layered Value.merge (valueOf? lower key) (valueOf? upper key) := by
  rw [mergeEntries_eq_layer, valueOf?_layer]

theorem layer_nil (combine : Value → Value → Value) (lower : Entries) : layer combine lower [] = lower := by
  simp [layer, newEntries]

theorem isSome_layered (combine : Value → Value → Value) (v w : Option Value) :
    (layered combine v w).isSome = (v.isSome || w.isSome) := by
  cases v <;> cases w <;> rfl

/-! ## Substitution -/

theorem valueOf?_substituteEntries (env : Environment) (entries : Entries) (key : Scalar) :
    valueOf? (substituteEntries env entries) key = (valueOf? entries key).map (Value.substitute env) := by
  induction entries with
  | nil => rfl
  | cons entry entries ih =>
    rw [substituteEntries, valueOf?_cons, valueOf?_cons, ih]
    split <;> rfl

/-! ## Values in sections -/

def Value.isMapping : Value → Bool
  | .mapping _ => true
  | _ => false

theorem Value.isMapping_iff (v : Value) : v.isMapping = true ↔ ∃ entries, v = .mapping entries := by
  cases v <;> simp [Value.isMapping]

theorem Value.merge_of_not_isMapping (v : Value) {w : Value} (h : w.isMapping = false) : v.merge w = w := by
  cases w with
  | mapping entries => cases h
  | _ => cases v <;> rfl

theorem Value.not_isMapping_merge {v : Value} (h : v.isMapping = false) (w : Value) : v.merge w = w := by
  cases v with
  | mapping entries => cases h
  | _ => rfl

def settingOf? (entries : Entries) (name key : Scalar) : Option Value :=
  match valueOf? entries name with
  | some (.mapping inside) => valueOf? inside key
  | _ => none

/-- The section is missing or a mapping, and the value of the key in it is no mapping. -/
structure IsFlat (entries : Entries) (name key : Scalar) : Prop where
  isMapping : ∀ v ∈ valueOf? entries name, v.isMapping = true
  not_isMapping : ∀ v ∈ settingOf? entries name key, v.isMapping = false

instance (entries : Entries) (name key : Scalar) : Decidable (IsFlat entries name key) :=
  decidable_of_iff ((∀ v ∈ valueOf? entries name, v.isMapping = true) ∧
      ∀ v ∈ settingOf? entries name key, v.isMapping = false)
    ⟨fun h => ⟨h.1, h.2⟩, fun h => ⟨h.isMapping, h.not_isMapping⟩⟩

end ScenarioRunner.Settings
