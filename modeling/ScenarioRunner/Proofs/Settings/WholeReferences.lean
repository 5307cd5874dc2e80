import ScenarioRunner.Proofs.Settings.Sharing

/-!
# References that can be looked up

A reference with half of a character in it may have no bytes, and then no variable can be asked for by its name. Main
statement: layers put together have such a reference only if one of them has.
-/

namespace ScenarioRunner.Settings

set_option autoImplicit false

def Value.IsWhole (v : Value) : Prop :=
  v.hasHalvedReference = false

def WholeEntries (entries : Entries) : Prop :=
  ∀ entry ∈ entries, entry.2.IsWhole

theorem anyHalvedEntry_eq_false_iff (entries : Entries) : anyHalvedEntry entries = false ↔ WholeEntries entries := by
  induction entries with
  | nil => simp [anyHalvedEntry, WholeEntries]
  | cons entry entries ih =>
    rw [WholeEntries, List.forall_mem_cons, ← WholeEntries, ← ih, anyHalvedEntry, Bool.or_eq_false_iff, Value.IsWhole]

theorem Value.isWhole_mapping_iff (entries : Entries) : (Value.mapping entries).IsWhole ↔ WholeEntries entries := by
  rw [← anyHalvedEntry_eq_false_iff, Value.IsWhole, Value.hasHalvedReference]

theorem Value.isWhole_list_iff (items : List Value) : (Value.list items).IsWhole ↔ ∀ v ∈ items, v.IsWhole := by
  rw [Value.IsWhole, Value.hasHalvedReference]
  induction items with
  | nil => simp [anyHalvedReference]
  | cons v items ih => rw [List.forall_mem_cons, ← ih, anyHalvedReference, Bool.or_eq_false_iff, Value.IsWhole]

instance (entries : Entries) : Decidable (WholeEntries entries) :=
  decidable_of_iff (anyHalvedEntry entries = false) (anyHalvedEntry_eq_false_iff entries)

theorem WholeEntries.append {entries more : Entries} (h : WholeEntries entries) (h' : WholeEntries more) :
    WholeEntries (entries ++ more) := by
  intro entry hEntry
  rcases List.mem_append.mp hEntry with hEntry | hEntry
  · exact h entry hEntry
  · exact h' entry hEntry

theorem WholeEntries.filter {entries : Entries} (h : WholeEntries entries) (keeps : Scalar × Value → Bool) :
    WholeEntries (entries.filter keeps) := fun entry hEntry => h entry (List.mem_filter.mp hEntry).1

theorem WholeEntries.valueOf? {entries : Entries} (h : WholeEntries entries) {key : Scalar} {v : Value}
    (hValue : valueOf? entries key = some v) : v.IsWhole := by
  obtain ⟨entry, hEntry, -, rfl⟩ := mem_of_valueOf?_eq_some hValue
  exact h entry hEntry

/-! ## Layers -/

theorem WholeEntries.layer {combine : Value → Value → Value} {lower upper : Entries}
    (hCombine : ∀ v w : Value, v.IsWhole → w.IsWhole → (combine v w).IsWhole) (hLower : WholeEntries lower)
    (hUpper : WholeEntries upper) : WholeEntries (layer combine lower upper) := by
  refine WholeEntries.append ?_ (hUpper.filter _)
  intro entry hEntry
  obtain ⟨old, hOld, rfl⟩ := List.mem_map.mp hEntry
  dsimp only
  split
  · next v hValue => exact hCombine _ v (hLower old hOld) (hUpper.valueOf? hValue)
  · exact hLower old hOld

mutual

theorem Value.IsWhole.merge : (v w : Value) → v.IsWhole → w.IsWhole → (v.merge w).IsWhole
  | .mapping lower, .mapping upper, hv, hw => by
    rw [Value.isWhole_mapping_iff] at hv hw
    rw [Value.merge, Value.isWhole_mapping_iff]
    exact (WholeEntries.mergeShared lower upper hv hw).append (hw.filter _)
  | .mapping _, .scalar _, _, hw => hw
  | .mapping _, .list _, _, hw => hw
  | .scalar _, _, _, hw => hw
  | .list _, _, _, hw => hw

theorem WholeEntries.mergeShared : (lower upper : Entries) → WholeEntries lower → WholeEntries upper →
    WholeEntries (mergeShared lower upper)
  | [], _, h, _ => h
  | (key, v) :: rest, upper, hLower, hUpper => by
    obtain ⟨hFirst, hRest⟩ := List.forall_mem_cons.mp hLower
    rw [Settings.mergeShared]
    refine List.forall_mem_cons.mpr ⟨?_, WholeEntries.mergeShared rest upper hRest hUpper⟩
    dsimp only
    split
    · next w hValue => exact Value.IsWhole.merge v w hFirst (hUpper.valueOf? hValue)
    · exact hFirst

end

theorem WholeEntries.mergeEntries {lower upper : Entries} (hLower : WholeEntries lower) (hUpper : WholeEntries upper) :
    WholeEntries (mergeEntries lower upper) :=
  (WholeEntries.mergeShared lower upper hLower hUpper).append (hUpper.filter _)

/-! ## Overrides -/

section

variable {updates : List Update}

theorem WholeEntries.updateMapping (hUpdates : ∀ u ∈ updates, WholeEntries u.values) (number : Nat) {entries : Entries}
    (h : WholeEntries entries) : WholeEntries (updateMapping updates number entries) := by
  have hFiltered : ∀ u ∈ updates.filter (·.number == number), WholeEntries u.values := fun u hu =>
    hUpdates u (List.mem_filter.mp hu).1
  rw [Settings.updateMapping]
  generalize updates.filter (·.number == number) = own at hFiltered
  induction own generalizing entries with
  | nil => exact h
  | cons u own ih =>
    obtain ⟨hFirst, hRest⟩ := List.forall_mem_cons.mp hFiltered
    exact ih (WholeEntries.layer (fun _ _ _ hw => hw) h hFirst) hRest

mutual

theorem SharedValue.isWhole_updated (hUpdates : ∀ u ∈ updates, WholeEntries u.values) :
    (v : SharedValue) → v.value.IsWhole → (v.updated updates).IsWhole
  | .scalar _, h => h
  | .list items, h => by
    rw [SharedValue.value, SharedValue.updated, Value.isWhole_list_iff] at h
    rw [SharedValue.updated, Value.isWhole_list_iff]
    exact isWhole_updatedItems hUpdates items h
  | .mapping number entries, h => by
    rw [SharedValue.value_mapping, Value.isWhole_mapping_iff] at h
    rw [SharedValue.updated, Value.isWhole_mapping_iff]
    exact (wholeEntries_updatedEntries hUpdates entries h).updateMapping hUpdates number

theorem isWhole_updatedItems (hUpdates : ∀ u ∈ updates, WholeEntries u.values) :
    (items : List SharedValue) → (∀ v ∈ updatedItems [] items, v.IsWhole) → ∀ v ∈ updatedItems updates items, v.IsWhole
  | [], h => h
  | v :: rest, h => by
    obtain ⟨hFirst, hRest⟩ := List.forall_mem_cons.mp h
    exact List.forall_mem_cons.mpr ⟨v.isWhole_updated hUpdates hFirst, isWhole_updatedItems hUpdates rest hRest⟩

theorem wholeEntries_updatedEntries (hUpdates : ∀ u ∈ updates, WholeEntries u.values) :
    (entries : SharedEntries) → WholeEntries (updatedEntries [] entries) →
    WholeEntries (updatedEntries updates entries)
  | [], h => h
  | (key, v) :: rest, h => by
    obtain ⟨hFirst, hRest⟩ := List.forall_mem_cons.mp h
    exact List.forall_mem_cons.mpr ⟨v.isWhole_updated hUpdates hFirst, wholeEntries_updatedEntries hUpdates rest hRest⟩

end

end

theorem Value.IsWhole.replaceSection {v w : Value} (hv : v.IsWhole) (hw : w.IsWhole) : (replaceSection v w).IsWhole := by
  unfold Settings.replaceSection
  split
  · exact hv
  · exact hw

theorem WholeEntries.overrideShared {base : SharedEntries} {overrides : Entries}
    (hBase : WholeEntries (updatedEntries [] base)) (hOverrides : WholeEntries overrides) :
    WholeEntries (overrideShared base overrides) := by
  have hUpdates : ∀ u ∈ updatesOf base overrides, WholeEntries u.values := by
    intro u hu
    obtain ⟨override, hOverride, hUpdate⟩ := List.mem_filterMap.mp hu
    have hWhole := hOverrides override hOverride
    rwa [(updateBy?_eq_some_iff.mp hUpdate).2, Value.isWhole_mapping_iff] at hWhole
  exact WholeEntries.layer (fun _ _ => Value.IsWhole.replaceSection) (wholeEntries_updatedEntries hUpdates base hBase)
    hOverrides

end ScenarioRunner.Settings
