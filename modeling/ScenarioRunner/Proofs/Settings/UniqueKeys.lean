import ScenarioRunner.Proofs.Settings.Lookup
import ScenarioRunner.Settings.Load

/-!
# Each key once

A key that is written again takes the place of the first one. Main statement: every mapping of a settings file, at any
depth, has each of its keys once.
-/

namespace ScenarioRunner.Settings

open ScenarioRunner.Files

set_option autoImplicit false

def UniqueKeys {α : Type} (entries : List (Scalar × α)) : Prop :=
  (entries.map Prod.fst).Pairwise fun s t => s.isSameKey t = false

instance {α : Type} (entries : List (Scalar × α)) : Decidable (UniqueKeys entries) :=
  inferInstanceAs (Decidable ((entries.map Prod.fst).Pairwise fun s t => s.isSameKey t = false))

theorem uniqueKeys_nil {α : Type} : UniqueKeys ([] : List (Scalar × α)) :=
  List.Pairwise.nil

theorem uniqueKeys_cons_iff {α : Type} {entry : Scalar × α} {entries : List (Scalar × α)} :
    UniqueKeys (entry :: entries) ↔ valueOf? entries entry.1 = none ∧ UniqueKeys entries := by
  have hHead : (∀ s ∈ entries.map Prod.fst, entry.1.isSameKey s = false) ↔ valueOf? entries entry.1 = none := by
    rw [valueOf?, Option.map_eq_none_iff, List.find?_eq_none, List.forall_mem_map]
    refine forall_congr' fun other => imp_congr_right fun _ => ?_
    rw [Scalar.isSameKey_comm, Bool.not_eq_true]
  rw [UniqueKeys, List.map_cons, List.pairwise_cons, hHead, UniqueKeys]

theorem UniqueKeys.valueOf?_of_mem {α : Type} {entries : List (Scalar × α)} (h : UniqueKeys entries)
    {entry : Scalar × α} (hEntry : entry ∈ entries) : valueOf? entries entry.1 = some entry.2 := by
  induction entries with
  | nil => cases hEntry
  | cons first entries ih =>
    obtain ⟨hFirst, hRest⟩ := uniqueKeys_cons_iff.mp h
    rw [valueOf?_cons]
    rcases List.mem_cons.mp hEntry with rfl | hEntry
    · rw [if_pos ((Scalar.isSameKey_iff entry.1 entry.1).mpr rfl)]
    · split
      · next hSame =>
        rw [valueOf?_congr hSame, ih hRest hEntry] at hFirst
        cases hFirst
      · exact ih hRest hEntry

inductive SharedValue.HasUniqueKeys : SharedValue → Prop
  | scalar (s : Scalar) : HasUniqueKeys (.scalar s)
  | list {items : List SharedValue} (h : ∀ v ∈ items, v.HasUniqueKeys) : HasUniqueKeys (.list items)
  | mapping {number : Nat} {entries : SharedEntries} (hKeys : UniqueKeys entries)
      (h : ∀ entry ∈ entries, entry.2.HasUniqueKeys) : HasUniqueKeys (.mapping number entries)

namespace Yaml

theorem valueOf?_putEntry (entries : SharedEntries) (key : Scalar) (v : SharedValue) (other : Scalar) :
    valueOf? (putEntry entries key v) other = if key.isSameKey other then some v else valueOf? entries other := by
  induction entries with
  | nil => rw [putEntry, valueOf?_cons, valueOf?_nil]
  | cons entry entries ih =>
    obtain ⟨first, old⟩ := entry
    rw [putEntry]
    split
    · next hSame =>
      rw [valueOf?_cons, valueOf?_cons, isSameKey_congr_left hSame]
      split <;> rfl
    · next hDiffers =>
      rw [valueOf?_cons, valueOf?_cons, ih]
      by_cases hFirst : first.isSameKey other = true
      · have hKey : key.isSameKey other = false := by
          rw [← isSameKey_congr_right hFirst, Scalar.isSameKey_comm]
          exact (Bool.not_eq_true _).mp hDiffers
        rw [if_pos hFirst, hKey, if_neg Bool.false_ne_true, if_pos hFirst]
      · rw [if_neg hFirst, if_neg hFirst]

theorem uniqueKeys_putEntry {entries : SharedEntries} (h : UniqueKeys entries) (key : Scalar) (v : SharedValue) :
    UniqueKeys (putEntry entries key v) := by
  induction entries with
  | nil => exact List.pairwise_singleton _ key
  | cons entry entries ih =>
    obtain ⟨first, old⟩ := entry
    obtain ⟨hFirst, hRest⟩ := uniqueKeys_cons_iff.mp h
    rw [putEntry]
    split
    · exact uniqueKeys_cons_iff.mpr ⟨hFirst, hRest⟩
    · next hDiffers =>
      refine uniqueKeys_cons_iff.mpr ⟨?_, ih hRest⟩
      rw [valueOf?_putEntry, Scalar.isSameKey_comm, if_neg hDiffers]
      exact hFirst

theorem forall_mem_putEntry {P : SharedValue → Prop} {entries : SharedEntries}
    (h : ∀ entry ∈ entries, P entry.2) (key : Scalar) {v : SharedValue} (hValue : P v) :
    ∀ entry ∈ putEntry entries key v, P entry.2 := by
  induction entries with
  | nil => simpa [putEntry] using hValue
  | cons entry entries ih =>
    obtain ⟨hEntry, hEntries⟩ := List.forall_mem_cons.mp h
    rw [putEntry]
    split
    · exact List.forall_mem_cons.mpr ⟨hValue, hEntries⟩
    · exact List.forall_mem_cons.mpr ⟨hEntry, ih hEntries⟩

/-- The entries that are written one after the other, with what is there before them. -/
theorem mapping_foldl_putEntry {entries written : SharedEntries} (hKeys : UniqueKeys entries)
    (h : ∀ entry ∈ entries, entry.2.HasUniqueKeys) (hWritten : ∀ entry ∈ written, entry.2.HasUniqueKeys)
    (number : Nat) :
    (SharedValue.mapping number
      (written.foldl (fun all entry => putEntry all entry.1 entry.2) entries)).HasUniqueKeys := by
  induction written generalizing entries with
  | nil => exact .mapping hKeys h
  | cons entry written ih =>
    obtain ⟨hEntry, hRest⟩ := List.forall_mem_cons.mp hWritten
    exact ih (uniqueKeys_putEntry hKeys entry.1 entry.2) (forall_mem_putEntry h entry.1 hEntry) hRest

mutual

theorem Node.hasUniqueKeys_value : (n : Node) → n.value.HasUniqueKeys
  | .scalar tag text => .scalar (Node.scalar tag text).scalarD
  | .list _ items => .list (hasUniqueKeys_itemValues items)
  | .mapping _ number entries _ =>
    mapping_foldl_putEntry uniqueKeys_nil (List.forall_mem_nil _) (hasUniqueKeys_entryValues entries) number

theorem hasUniqueKeys_itemValues : (items : List Node) → ∀ v ∈ itemValues items, v.HasUniqueKeys
  | [] => List.forall_mem_nil _
  | n :: rest => List.forall_mem_cons.mpr ⟨n.hasUniqueKeys_value, hasUniqueKeys_itemValues rest⟩

theorem hasUniqueKeys_entryValues : (entries : NodeEntries) → ∀ entry ∈ entryValues entries, entry.2.HasUniqueKeys
  | [] => List.forall_mem_nil _
  | (_, n) :: rest => List.forall_mem_cons.mpr ⟨n.hasUniqueKeys_value, hasUniqueKeys_entryValues rest⟩

end

theorem hasUniqueKeys_of_read {n : Node} {v : SharedValue} (h : n.read = .ok v) : v.HasUniqueKeys := by
  obtain ⟨scalar?, -, h⟩ := exists_of_bind_eq_ok h
  cases scalar? with
  | some s =>
    cases h
    exact .scalar s
  | none =>
    dsimp only at h
    split at h
    · cases h
    · cases h
      exact n.hasUniqueKeys_value

theorem hasUniqueKeys_of_readDocument {s : List Char} {v : SharedValue} (h : readDocument s = .ok v) :
    v.HasUniqueKeys := by
  rw [readDocument] at h
  split at h
  · cases h
  obtain ⟨node?, -, h⟩ := exists_of_bind_eq_ok h
  cases node? with
  | none =>
    cases h
    exact .scalar .null
  | some n => exact hasUniqueKeys_of_read h

end Yaml

theorem hasUniqueKeys_of_readSettings {t : FileTree} {p : Path} {v : SharedValue} (h : readSettings t p = .ok v) :
    v.HasUniqueKeys := by
  obtain ⟨s, -, h⟩ := exists_of_bind_eq_ok h
  obtain ⟨read, hRead, h⟩ := exists_of_bind_eq_ok h
  cases h
  split
  · exact Yaml.hasUniqueKeys_of_readDocument hRead
  · exact .mapping uniqueKeys_nil (List.forall_mem_nil _)

end ScenarioRunner.Settings
