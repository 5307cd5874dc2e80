import Mathlib.Data.List.Nodup
import ScenarioRunner.Proofs.Settings.UniqueKeys

/-!
# Overrides and shared mappings

An override of a section updates the mapping that stands there, and with it every other place of that mapping. Main
statement: a section that no override of another section reaches has the values of its own overrides laid over its own,
key by key, and stays as it is if it has no overrides. If every mapping stands at one place only, all sections are such,
and an overlay is laid over the value of the settings.
-/

namespace ScenarioRunner.Settings

set_option autoImplicit false

/-! ## The places of mappings -/

mutual

def SharedValue.numbers : SharedValue → List Nat
  | .scalar _ => []
  | .list items => itemNumbers items
  | .mapping number entries => number :: entryNumbers entries

def itemNumbers : List SharedValue → List Nat
  | [] => []
  | v :: rest => v.numbers ++ itemNumbers rest

def entryNumbers : SharedEntries → List Nat
  | [] => []
  | (_, v) :: rest => v.numbers ++ entryNumbers rest

end

theorem updateMapping_eq_self {updates : List Update} {number : Nat} (h : ∀ u ∈ updates, u.number ≠ number)
    (entries : Entries) : updateMapping updates number entries = entries := by
  have hNone : updates.filter (·.number == number) = [] := by
    rw [List.filter_eq_nil_iff]
    intro u hu
    simpa using h u hu
  rw [updateMapping, hNone, List.foldl_nil]

section

variable {updates : List Update}

mutual

/-- Updates of other mappings leave a value as it is. -/
theorem SharedValue.updated_eq_value : (v : SharedValue) → (∀ u ∈ updates, u.number ∉ v.numbers) →
    v.updated updates = v.value
  | .scalar _, _ => rfl
  | .list items, h => by
    rw [SharedValue.value, SharedValue.updated, SharedValue.updated, updatedItems_eq items h]
  | .mapping number entries, h => by
    have hNumber : ∀ u ∈ updates, u.number ≠ number := fun u hu hSame => h u hu (hSame ▸ List.mem_cons_self)
    have hEntries : ∀ u ∈ updates, u.number ∉ entryNumbers entries := fun u hu hMem =>
      h u hu (List.mem_cons_of_mem number hMem)
    rw [SharedValue.value_mapping, SharedValue.updated, updateMapping_eq_self hNumber, updatedEntries_eq entries hEntries]

theorem updatedItems_eq : (items : List SharedValue) → (∀ u ∈ updates, u.number ∉ itemNumbers items) →
    updatedItems updates items = updatedItems [] items
  | [], _ => rfl
  | v :: rest, h => by
    have hFirst : ∀ u ∈ updates, u.number ∉ v.numbers := fun u hu hMem => h u hu (List.mem_append_left _ hMem)
    have hRest : ∀ u ∈ updates, u.number ∉ itemNumbers rest := fun u hu hMem => h u hu (List.mem_append_right _ hMem)
    rw [updatedItems, updatedItems, v.updated_eq_value hFirst, updatedItems_eq rest hRest, SharedValue.value]

theorem updatedEntries_eq : (entries : SharedEntries) → (∀ u ∈ updates, u.number ∉ entryNumbers entries) →
    updatedEntries updates entries = updatedEntries [] entries
  | [], _ => rfl
  | (key, v) :: rest, h => by
    have hFirst : ∀ u ∈ updates, u.number ∉ v.numbers := fun u hu hMem => h u hu (List.mem_append_left _ hMem)
    have hRest : ∀ u ∈ updates, u.number ∉ entryNumbers rest := fun u hu hMem => h u hu (List.mem_append_right _ hMem)
    rw [updatedEntries, updatedEntries, v.updated_eq_value hFirst, updatedEntries_eq rest hRest, SharedValue.value]

end

end

theorem updatedItems_eq_map (updates : List Update) (items : List SharedValue) :
    updatedItems updates items = items.map (SharedValue.updated updates) := by
  induction items with
  | nil => rfl
  | cons v items ih => rw [updatedItems, ih, List.map_cons]

theorem updatedEntries_eq_map (updates : List Update) (entries : SharedEntries) :
    updatedEntries updates entries = entries.map fun entry => (entry.1, entry.2.updated updates) := by
  induction entries with
  | nil => rfl
  | cons entry entries ih => rw [updatedEntries, ih, List.map_cons]

theorem valueOf?_updatedEntries (updates : List Update) (entries : SharedEntries) (key : Scalar) :
    valueOf? (updatedEntries updates entries) key = (valueOf? entries key).map (SharedValue.updated updates) := by
  induction entries with
  | nil => rfl
  | cons entry entries ih =>
    rw [updatedEntries, valueOf?_cons, valueOf?_cons, ih]
    split <;> rfl

theorem UniqueKeys.updatedEntries {entries : SharedEntries} (h : UniqueKeys entries) (updates : List Update) :
    UniqueKeys (updatedEntries updates entries) := by
  induction entries with
  | nil => exact uniqueKeys_nil
  | cons entry entries ih =>
    obtain ⟨hFirst, hRest⟩ := uniqueKeys_cons_iff.mp h
    refine uniqueKeys_cons_iff.mpr ⟨?_, ih hRest⟩
    rw [valueOf?_updatedEntries, hFirst, Option.map_none]

/-- A mapping right inside the mapping of a file has each key once. -/
theorem uniqueKeys_of_valueOf? {v : SharedValue} {entries inside : Entries} {key : Scalar} (h : v.HasUniqueKeys)
    (hEntries : v.value = .mapping entries) (hInside : valueOf? entries key = some (.mapping inside)) :
    UniqueKeys inside := by
  cases h with
  | scalar s => cases hEntries
  | list hItems =>
    rw [SharedValue.value, SharedValue.updated] at hEntries
    cases hEntries
  | @mapping number shared _ hShared =>
    rw [SharedValue.value_mapping] at hEntries
    cases hEntries
    rw [valueOf?_updatedEntries, Option.map_eq_some_iff] at hInside
    obtain ⟨w, hw, hValue⟩ := hInside
    obtain ⟨entry, hMem, -, rfl⟩ := mem_of_valueOf?_eq_some hw
    cases hEntry : entry.2 with
    | scalar s => rw [hEntry] at hValue; cases hValue
    | list items =>
      rw [hEntry, SharedValue.updated] at hValue
      cases hValue
    | mapping other nested =>
      have hNested := hShared entry hMem
      rw [hEntry] at hValue hNested
      rw [← SharedValue.value, SharedValue.value_mapping] at hValue
      cases hValue
      cases hNested with
      | mapping hKeys _ => exact hKeys.updatedEntries []

/-! ## Overrides -/

def updatesOf (base : SharedEntries) (overrides : Entries) : List Update :=
  overrides.filterMap (updateBy? base)

/-- Of the mappings in the section, overrides update at most the one that the section is, and by its own name. -/
def Unreached (base : SharedEntries) (overrides : Entries) (name : Scalar) : Prop :=
  ∀ override ∈ overrides, ∀ u ∈ updateBy? base override, ∀ v ∈ valueOf? base name, u.number ∈ v.numbers →
    override.1.isSameKey name = true ∧ v.numbers.count u.number = 1

section

variable {base : SharedEntries} {overrides : Entries} {name : Scalar}

theorem updateBy?_eq_some_iff {override : Scalar × Value} {u : Update} :
    updateBy? base override = some u ↔
      (∃ entries, valueOf? base override.1 = some (.mapping u.number entries)) ∧ override.2 = .mapping u.values := by
  rw [updateBy?]
  split
  · next number entries values hBase hValue =>
    rw [hBase, hValue, Option.some.injEq]
    constructor
    · rintro rfl
      exact ⟨⟨entries, rfl⟩, rfl⟩
    · rintro ⟨⟨_, hSame⟩, hValues⟩
      cases hSame
      cases hValues
      rfl
  · next hNone =>
    constructor
    · intro h
      cases h
    · rintro ⟨⟨entries, hBase⟩, hValue⟩
      exact absurd hValue (hNone _ _ _ hBase)

/-- What is inside the mapping of a section is not updated. -/
theorem Unreached.number_notMem {number : Nat} {entries : SharedEntries} (h : Unreached base overrides name)
    (hBase : valueOf? base name = some (.mapping number entries)) :
    ∀ u ∈ updatesOf base overrides, u.number ∉ entryNumbers entries := by
  intro u hu hMem
  obtain ⟨override, hOverride, hUpdate⟩ := List.mem_filterMap.mp hu
  obtain ⟨hSame, hOnce⟩ := h override hOverride u hUpdate _ hBase (List.mem_cons_of_mem number hMem)
  obtain ⟨⟨_, hUpdated⟩, -⟩ := updateBy?_eq_some_iff.mp hUpdate
  rw [valueOf?_congr hSame, hBase, Option.some.injEq, SharedValue.mapping.injEq] at hUpdated
  rw [SharedValue.numbers, hUpdated.1, List.count_cons_self] at hOnce
  have hPos := List.count_pos_iff.mpr hMem
  omega

/-- The updates of the mapping of a section: the one by its own overrides, if they are a mapping. -/
def ownUpdates (number : Nat) : Option Value → List Update
  | some (.mapping values) => [⟨number, values⟩]
  | _ => []

theorem filter_updatesOf {number : Nat} {entries : SharedEntries} (hKeys : UniqueKeys overrides)
    (h : Unreached base overrides name) (hBase : valueOf? base name = some (.mapping number entries)) :
    (updatesOf base overrides).filter (·.number == number) = ownUpdates number (valueOf? overrides name) := by
  induction overrides with
  | nil => rfl
  | cons override overrides ih =>
    -- The override of this name stands once, and those of other names update other mappings.
    obtain ⟨hFirst, hRest⟩ := uniqueKeys_cons_iff.mp hKeys
    obtain ⟨hOverride, hOverrides⟩ := List.forall_mem_cons.mp h
    have hTail := ih hRest hOverrides
    rw [valueOf?_cons]
    split
    · next hSame =>
      rw [← valueOf?_congr hSame, hFirst] at hTail
      rw [← valueOf?_congr hSame] at hBase
      cases hValue : override.2 with
      | mapping values =>
        have hUpdate : updateBy? base override = some ⟨number, values⟩ :=
          updateBy?_eq_some_iff.mpr ⟨⟨entries, hBase⟩, hValue⟩
        rw [updatesOf, List.filterMap_cons_some hUpdate, List.filter_cons_of_pos (by simp), ← updatesOf, hTail]
        rfl
      | _ =>
        have hNone : updateBy? base override = none := by
          rw [Option.eq_none_iff_forall_ne_some]
          intro u hUpdate
          have hMapping := (updateBy?_eq_some_iff.mp hUpdate).2
          rw [hValue] at hMapping
          cases hMapping
        rw [updatesOf, List.filterMap_cons_none hNone, ← updatesOf, hTail]
        rfl
    · next hDiffers =>
      rw [← hTail, updatesOf, updatesOf]
      cases hUpdate : updateBy? base override with
      | none => rw [List.filterMap_cons_none hUpdate]
      | some u =>
        have hNumber : u.number ≠ number := by
          intro hSame
          have hMem : u.number ∈ (SharedValue.mapping number entries).numbers := by simp [SharedValue.numbers, hSame]
          exact hDiffers (hOverride u hUpdate _ hBase hMem).1
        rw [List.filterMap_cons_some hUpdate, List.filter_cons_of_neg (by simpa using hNumber)]

/-! ## Sections after the overrides -/

theorem valueOf?_overrideShared (base : SharedEntries) (overrides : Entries) (name : Scalar) :
    valueOf? (overrideShared base overrides) name =
      layered replaceSection ((valueOf? base name).map (SharedValue.updated (updatesOf base overrides)))
        (valueOf? overrides name) := by
  rw [overrideShared, valueOf?_layer, valueOf?_updatedEntries, updatesOf]

theorem valueOf?_overrideShared_of_none (h : Unreached base overrides name) (hNone : valueOf? overrides name = none) :
    valueOf? (overrideShared base overrides) name = valueOf? (updatedEntries [] base) name := by
  rw [valueOf?_overrideShared, valueOf?_updatedEntries, hNone]
  cases hBase : valueOf? base name with
  | none => rfl
  | some v =>
    have hNumbers : ∀ u ∈ updatesOf base overrides, u.number ∉ v.numbers := by
      intro u hu hMem
      obtain ⟨override, hOverride, hUpdate⟩ := List.mem_filterMap.mp hu
      obtain ⟨hSame, -⟩ := h override hOverride u hUpdate v hBase hMem
      have hMissing := List.find?_eq_none.mp (Option.map_eq_none_iff.mp hNone) override hOverride
      exact hMissing hSame
    rw [Option.map_some, Option.map_some, v.updated_eq_value hNumbers]
    rfl

theorem valueOf?_overrideShared_mapping {number : Nat} {entries : SharedEntries} {values : Entries}
    (hKeys : UniqueKeys overrides) (h : Unreached base overrides name)
    (hBase : valueOf? base name = some (.mapping number entries))
    (hOverrides : valueOf? overrides name = some (.mapping values)) :
    valueOf? (overrideShared base overrides) name =
      some (.mapping (updateEntries (updatedEntries [] entries) values)) := by
  rw [valueOf?_overrideShared, hBase, hOverrides, Option.map_some, SharedValue.updated, updateMapping,
    filter_updatesOf hKeys h hBase, hOverrides, updatedEntries_eq entries (h.number_notMem hBase)]
  rfl

end

/-! ## Mappings at one place -/

section

variable {base : SharedEntries} {number : Nat} {name other : Scalar} {v w : SharedValue}

theorem mem_entryNumbers (hValue : valueOf? base name = some v) (h : number ∈ v.numbers) :
    number ∈ entryNumbers base := by
  induction base with
  | nil => cases hValue
  | cons entry base ih =>
    rw [valueOf?_cons] at hValue
    rw [entryNumbers, List.mem_append]
    split at hValue
    · cases hValue
      exact .inl h
    · exact .inr (ih hValue)

theorem nodup_numbers (hBase : (entryNumbers base).Nodup) (hValue : valueOf? base name = some v) :
    v.numbers.Nodup := by
  induction base with
  | nil => cases hValue
  | cons entry base ih =>
    rw [entryNumbers, List.nodup_append] at hBase
    rw [valueOf?_cons] at hValue
    split at hValue
    · cases hValue
      exact hBase.1
    · exact ih hBase.2.1 hValue

theorem isSameKey_of_mem_numbers (hBase : (entryNumbers base).Nodup) (hv : valueOf? base name = some v)
    (hw : valueOf? base other = some w) (hMemV : number ∈ v.numbers) (hMemW : number ∈ w.numbers) :
    name.isSameKey other = true := by
  induction base with
  | nil => cases hv
  | cons entry base ih =>
    rw [entryNumbers, List.nodup_append] at hBase
    obtain ⟨-, hRest, hApart⟩ := hBase
    rw [valueOf?_cons] at hv hw
    split at hv
    · next hName =>
      cases hv
      split at hw
      · next hOther => rwa [← isSameKey_congr_left hName]
      · exact absurd rfl (hApart number hMemV number (mem_entryNumbers hw hMemW))
    · split at hw
      · cases hw
        exact absurd rfl (hApart number hMemW number (mem_entryNumbers hv hMemV))
      · exact ih hRest hv hw

/-- Where every mapping of the base stands at one place only, no override reaches another section. -/
theorem unreached_of_nodup (hBase : (entryNumbers base).Nodup) (overrides : Entries) (name : Scalar) :
    Unreached base overrides name := by
  intro override _ u hUpdate v hValue hMem
  obtain ⟨⟨entries, hSection⟩, -⟩ := updateBy?_eq_some_iff.mp hUpdate
  have hOwn : u.number ∈ (SharedValue.mapping u.number entries).numbers := List.mem_cons_self
  exact ⟨isSameKey_of_mem_numbers hBase hSection hValue hOwn hMem,
    List.count_eq_one_of_mem (nodup_numbers hBase hValue) hMem⟩

end

/-! ## Overlays over values -/

section

variable {base : SharedEntries} {overrides : Entries}

theorem newEntries_updatedEntries (updates : List Update) (base : SharedEntries) (upper : Entries) :
    newEntries (updatedEntries updates base) upper = newEntries (updatedEntries [] base) upper := by
  refine List.filter_congr fun entry _ => ?_
  rw [valueOf?_updatedEntries, valueOf?_updatedEntries, Option.isNone_map, Option.isNone_map]

theorem overrideShared_eq_applyOverrides (hBase : UniqueKeys base) (hPlaces : (entryNumbers base).Nodup)
    (hOverrides : UniqueKeys overrides) :
    overrideShared base overrides = applyOverrides (updatedEntries [] base) overrides := by
  rw [overrideShared, applyOverrides, layer, layer, newEntries_updatedEntries, updatedEntries_eq_map,
    updatedEntries_eq_map, List.map_map, List.map_map]
  refine congrArg (· ++ _) (List.map_congr_left fun entry hEntry => congrArg (Prod.mk entry.1) ?_)
  have hSection := hBase.valueOf?_of_mem hEntry
  have hUnreached := unreached_of_nodup hPlaces overrides entry.1
  dsimp only
  rw [← updatesOf]
  cases hOwn : valueOf? overrides entry.1 with
  | none =>
    have hSame := valueOf?_overrideShared_of_none hUnreached hOwn
    rw [valueOf?_overrideShared, valueOf?_updatedEntries, hSection, hOwn] at hSame
    exact Option.some.inj hSame
  | some w =>
    cases w with
    | scalar s => cases entry.2 <;> rfl
    | list items => cases entry.2 <;> rfl
    | mapping values =>
      cases hValue : entry.2 with
      | scalar s => rfl
      | list items => rfl
      | mapping number entries =>
        rw [hValue] at hSection
        have hUpdated := valueOf?_overrideShared_mapping hOverrides hUnreached hSection hOwn
        rw [valueOf?_overrideShared, hSection, hOwn] at hUpdated
        rw [← SharedValue.value, SharedValue.value_mapping]
        exact Option.some.inj hUpdated

/-- The overrides of an overlay, if it has any, and then the rest of it, laid over settings whose mappings each stand at
one place. -/
theorem overlay_eq_of_nodup (hBase : UniqueKeys base) (hPlaces : (entryNumbers base).Nodup) {overrides : Option Value}
    (hOverrides : ∀ entries, overrides = some (.mapping entries) → UniqueKeys entries) (number : Nat)
    (rest : Entries) :
    (overridden base overrides).map (fun held => Value.mapping (mergeEntries held rest)) =
      (overrides.elim (.ok (SharedValue.mapping number base).value)
        (overrideWith (SharedValue.mapping number base).value)).bind (mergeOver · (.mapping rest)) := by
  rw [SharedValue.value_mapping]
  match overrides with
  | none => rfl
  | some (.scalar _) => rfl
  | some (.list _) => rfl
  | some (.mapping entries) =>
    rw [overridden, overrideShared_eq_applyOverrides hBase hPlaces (hOverrides entries rfl)]
    rfl

end

end ScenarioRunner.Settings
