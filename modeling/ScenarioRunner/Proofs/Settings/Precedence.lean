import ScenarioRunner.Proofs.Settings.Overlay
import ScenarioRunner.Proofs.Settings.WholeReferences

/-!
# The order of the layers

Settings are looked up in the rest of the overlay first, then in its overrides, then in the base. Main statement: this
is so for every section that no override of another section reaches, and loading puts the variables in last.
-/

namespace ScenarioRunner.Settings

open ScenarioRunner.Files

set_option autoImplicit false

/-! ## One layer over another -/

section

variable {name key : Scalar}

theorem settingOf?_of_mapping {entries inside : Entries} (h : valueOf? entries name = some (.mapping inside)) :
    settingOf? entries name key = valueOf? inside key := by
  rw [settingOf?, h]

theorem settingOf?_of_none {entries : Entries} (h : valueOf? entries name = none) :
    settingOf? entries name key = none := by
  rw [settingOf?, h]

theorem settingOf?_congr {entries others : Entries} (h : valueOf? entries name = valueOf? others name) :
    settingOf? entries name key = settingOf? others name key := by
  rw [settingOf?, settingOf?, h]

/-- A section that may be looked into is missing or a mapping. -/
theorem IsFlat.none_or_mapping {entries : Entries} (h : IsFlat entries name key) :
    valueOf? entries name = none ∨ ∃ inside, valueOf? entries name = some (.mapping inside) := by
  cases hValue : valueOf? entries name with
  | none => exact .inl rfl
  | some v =>
    obtain ⟨inside, rfl⟩ := v.isMapping_iff.mp (h.isMapping v hValue)
    exact .inr ⟨inside, rfl⟩

theorem settingOf?_mergeEntries {lower upper : Entries} (hLower : IsFlat lower name key)
    (hUpper : IsFlat upper name key) :
    settingOf? (mergeEntries lower upper) name key =
      (settingOf? upper name key).or (settingOf? lower name key) := by
  have hMerged := valueOf?_mergeEntries lower upper name
  rcases hUpper.none_or_mapping with hu | ⟨above, hu⟩
  · rw [settingOf?_of_none hu, Option.none_or]
    refine settingOf?_congr (hMerged.trans ?_)
    rw [hu]
    cases valueOf? lower name <;> rfl
  rcases hLower.none_or_mapping with hl | ⟨below, hl⟩
  · rw [settingOf?_of_none hl, Option.or_none]
    refine settingOf?_congr (hMerged.trans ?_)
    rw [hu, hl]
    rfl
  have hInside : valueOf? (mergeEntries lower upper) name = some (.mapping (mergeEntries below above)) := by
    rw [hMerged, hu, hl]
    rfl
  rw [settingOf?_of_mapping hInside, settingOf?_of_mapping hu, settingOf?_of_mapping hl, valueOf?_mergeEntries]
  cases hAbove : valueOf? above key with
  | none => cases valueOf? below key <;> rfl
  | some w =>
    have hFlat : w.isMapping = false := hUpper.not_isMapping w ((settingOf?_of_mapping hu).trans hAbove)
    cases valueOf? below key with
    | none => rfl
    | some v => exact congrArg some (v.merge_of_not_isMapping hFlat)

variable {base : SharedEntries} {overrides : Entries}

/-- The two lookups of a section with its overrides: whether it is there, and what a key has in it. -/
theorem settingOf?_overrideShared (hKeys : UniqueKeys overrides) (h : Unreached base overrides name)
    (hBase : IsFlat (updatedEntries [] base) name key) (hOverrides : IsFlat overrides name key) :
    (valueOf? (overrideShared base overrides) name = none ∨
        ∃ inside, valueOf? (overrideShared base overrides) name = some (.mapping inside)) ∧
      settingOf? (overrideShared base overrides) name key =
        (settingOf? overrides name key).or (settingOf? (updatedEntries [] base) name key) := by
  rcases hOverrides.none_or_mapping with ho | ⟨values, ho⟩
  · have hSame := valueOf?_overrideShared_of_none h ho
    rw [settingOf?_of_none ho, Option.none_or, hSame]
    exact ⟨hBase.none_or_mapping, settingOf?_congr hSame⟩
  have hPlain := valueOf?_updatedEntries [] base name
  cases hb : valueOf? base name with
  | none =>
    have hSection : valueOf? (overrideShared base overrides) name = some (.mapping values) := by
      rw [valueOf?_overrideShared, hb, ho]
      rfl
    rw [hb] at hPlain
    rw [settingOf?_of_none hPlain, Option.or_none, settingOf?_of_mapping ho]
    exact ⟨.inr ⟨values, hSection⟩, settingOf?_of_mapping hSection⟩
  | some v =>
    rw [hb, Option.map_some] at hPlain
    cases v with
    | mapping number entries =>
      have hSection := valueOf?_overrideShared_mapping hKeys h hb ho
      rw [← SharedValue.value, SharedValue.value_mapping] at hPlain
      rw [settingOf?_of_mapping hSection, settingOf?_of_mapping ho, settingOf?_of_mapping hPlain]
      exact ⟨.inr ⟨_, hSection⟩, valueOf?_updateEntries _ _ _⟩
    | scalar s => cases hBase.isMapping _ hPlain
    | list items => cases hBase.isMapping _ hPlain

/-- With no mapping as the value of the key below or above, there is none after the overrides. -/
theorem IsFlat.overrideShared (hKeys : UniqueKeys overrides) (h : Unreached base overrides name)
    (hBase : IsFlat (updatedEntries [] base) name key) (hOverrides : IsFlat overrides name key) :
    IsFlat (overrideShared base overrides) name key := by
  obtain ⟨hSection, hSetting⟩ := settingOf?_overrideShared hKeys h hBase hOverrides
  constructor
  · intro v hv
    rcases hSection with hNone | ⟨inside, hInside⟩
    · rw [hNone] at hv
      cases hv
    · rw [hInside] at hv
      cases hv
      rfl
  · intro v hv
    rw [hSetting, Option.mem_def, Option.or_eq_some_iff] at hv
    rcases hv with hv | ⟨-, hv⟩
    · exact hOverrides.not_isMapping v hv
    · exact hBase.not_isMapping v hv

end

theorem settingOf?_substituteEntries (env : Environment) (entries : Entries) (name key : Scalar) :
    settingOf? (substituteEntries env entries) name key =
      (settingOf? entries name key).map (Value.substitute env) := by
  have hSection := valueOf?_substituteEntries env entries name
  cases hValue : valueOf? entries name with
  | none =>
    rw [hValue] at hSection
    rw [settingOf?_of_none hSection, settingOf?_of_none hValue, Option.map_none]
  | some v =>
    rw [hValue, Option.map_some] at hSection
    rw [settingOf?, settingOf?, hSection, hValue]
    cases v with
    | mapping inside => exact valueOf?_substituteEntries env inside key
    | list items => rfl
    | scalar s => cases s <;> rfl

/-! ## The layers of a load -/

/-- What the file of the environment adds: its overrides and the rest of it. Without such a file there are none. -/
inductive HasOverlay (t : FileTree) (settingsPath : Path) (environment : Option String) : Entries → Entries → Prop
  | absent (hRead : readOverlay t settingsPath environment = .ok none) : HasOverlay t settingsPath environment [] []
  | file {overlay : SharedValue} {entries overrides : Entries}
    (hRead : readOverlay t settingsPath environment = .ok (some overlay)) (hEntries : overlay.value = .mapping entries)
    (hOverrides : (valueOf? entries (.text overridesKey)).getD (.mapping []) = .mapping overrides) :
    HasOverlay t settingsPath environment overrides (entries.filter fun entry => entry.1 != .text overridesKey)

section

variable {t : FileTree} {settingsPath : Path} {environment : Option String} {overrides rest : Entries}

theorem hasUniqueKeys_of_readOverlay {overlay : SharedValue}
    (h : readOverlay t settingsPath environment = .ok (some overlay)) : overlay.HasUniqueKeys := by
  unfold readOverlay at h
  split at h
  · cases h
  · cases h
  · obtain ⟨present, -, h⟩ := exists_of_bind_eq_ok h
    split at h
    · obtain ⟨read, hRead, h⟩ := exists_of_bind_eq_ok h
      cases h
      exact hasUniqueKeys_of_readSettings hRead
    · cases h

theorem HasOverlay.uniqueKeys (h : HasOverlay t settingsPath environment overrides rest) : UniqueKeys overrides := by
  cases h with
  | absent _ => exact uniqueKeys_nil
  | @file _ entries _ hRead hEntries hOverrides =>
    cases hValue : valueOf? entries (.text overridesKey) with
    | none =>
      rw [hValue] at hOverrides
      cases hOverrides
      exact uniqueKeys_nil
    | some v =>
      rw [hValue, Option.getD_some] at hOverrides
      rw [hOverrides] at hValue
      exact uniqueKeys_of_valueOf? (hasUniqueKeys_of_readOverlay hRead) hEntries hValue

theorem HasOverlay.valueOf?_overridesKey (h : HasOverlay t settingsPath environment overrides rest) :
    valueOf? rest (.text overridesKey) = none := by
  cases h with
  | absent _ => rfl
  | @file _ entries =>
    rw [valueOf?, Option.map_eq_none_iff, List.find?_eq_none]
    intro entry hEntry hSame
    obtain ⟨-, hOther⟩ := List.mem_filter.mp hEntry
    exact bne_iff_ne.mp hOther ((Scalar.isSameKey_text_iff entry.1 overridesKey).mp hSame)

theorem layOverlay_of_hasOverlay (base : SharedEntries) (h : HasOverlay t settingsPath environment overrides rest) :
    layOverlay base t settingsPath environment = .ok (mergeEntries (overrideShared base overrides) rest) := by
  rw [layOverlay_eq_bind]
  cases h with
  | absent hRead =>
    rw [hRead, mergeEntries_eq_layer, layer_nil, overrideShared, layer_nil]
    rfl
  | @file overlay entries _ hRead hEntries hOverrides =>
    have hOverridden : overridden base (valueOf? entries (.text overridesKey)) = .ok (overrideShared base overrides) := by
      cases hValue : valueOf? entries (.text overridesKey) with
      | none =>
        rw [hValue] at hOverrides
        cases hOverrides
        rw [overrideShared, layer_nil]
        rfl
      | some v =>
        rw [hValue, Option.getD_some] at hOverrides
        rw [hOverrides]
        rfl
    have hWith : withOverlay base (some overlay) = .ok (mergeEntries (overrideShared base overrides)
        (entries.filter fun entry => entry.1 != .text overridesKey)) := by
      simp only [withOverlay, hEntries, splitOverlay, hOverridden, bind, Except.bind, pure, Except.pure]
    rw [hRead, ← hWith]
    rfl

end

structure Layers where
  base : SharedEntries
  overrides : Entries
  rest : Entries

namespace Layers

structure ReadFrom (l : Layers) (t : FileTree) (settingsPath : Path) (environment : Option String) : Prop where
  base : ∃ number, readBase t settingsPath = .ok (.mapping number l.base)
  overlay : HasOverlay t settingsPath environment l.overrides l.rest

def settingOf? (l : Layers) (name key : Scalar) : Option Value :=
  ((Settings.settingOf? l.rest name key).or (Settings.settingOf? l.overrides name key)).or
    (Settings.settingOf? (updatedEntries [] l.base) name key)

structure IsFlat (l : Layers) (name key : Scalar) : Prop where
  base : Settings.IsFlat (updatedEntries [] l.base) name key
  overrides : Settings.IsFlat l.overrides name key
  rest : Settings.IsFlat l.rest name key

instance (l : Layers) (name key : Scalar) : Decidable (l.IsFlat name key) :=
  decidable_of_iff (Settings.IsFlat (updatedEntries [] l.base) name key ∧ Settings.IsFlat l.overrides name key ∧
      Settings.IsFlat l.rest name key)
    ⟨fun h => ⟨h.1, h.2.1, h.2.2⟩, fun h => ⟨h.base, h.overrides, h.rest⟩⟩

structure IsWhole (l : Layers) : Prop where
  base : WholeEntries (updatedEntries [] l.base)
  overrides : WholeEntries l.overrides
  rest : WholeEntries l.rest

def merged (l : Layers) : Entries :=
  mergeEntries (overrideShared l.base l.overrides) l.rest

variable {l : Layers} {name key : Scalar}

theorem IsWhole.merged (h : l.IsWhole) : WholeEntries l.merged :=
  (h.base.overrideShared h.overrides).mergeEntries h.rest

theorem isSome_merged (l : Layers) (name : Scalar) :
    (valueOf? l.merged name).isSome =
      ((valueOf? l.rest name).isSome || (valueOf? l.overrides name).isSome || (valueOf? l.base name).isSome) := by
  rw [merged, valueOf?_mergeEntries, isSome_layered, valueOf?_overrideShared, isSome_layered, Option.isSome_map,
    Bool.or_comm, Bool.or_comm (valueOf? l.base name).isSome, Bool.or_assoc]

theorem valueOf?_merged_of_none (h : Unreached l.base l.overrides name) (hOverrides : valueOf? l.overrides name = none)
    (hRest : valueOf? l.rest name = none) : valueOf? l.merged name = valueOf? (updatedEntries [] l.base) name := by
  rw [merged, valueOf?_mergeEntries, hRest, valueOf?_overrideShared_of_none h hOverrides]
  cases valueOf? (updatedEntries [] l.base) name <;> rfl

theorem settingOf?_merged (hKeys : UniqueKeys l.overrides) (h : Unreached l.base l.overrides name)
    (hFlat : l.IsFlat name key) : Settings.settingOf? l.merged name key = l.settingOf? name key := by
  have hUnder := IsFlat.overrideShared hKeys h hFlat.base hFlat.overrides
  rw [merged, settingOf?_mergeEntries hUnder hFlat.rest, (settingOf?_overrideShared hKeys h hFlat.base hFlat.overrides).2,
    settingOf?, Option.or_assoc]

end Layers

section

variable {t : FileTree} {env : Environment} {settingsPath : Path} {environment : Option String} {held : Loaded}
  {l : Layers}

theorem load_of_layers (hHeld : Loaded.readEnvironment { environment := env } t settingsPath = (held, .ok ()))
    (hRead : l.ReadFrom t settingsPath environment) (hWhole : l.IsWhole) :
    (load t env settingsPath environment).2 = .ok (.mapping (substituteEntries held.environment l.merged)) := by
  obtain ⟨number, hBase⟩ := hRead.base
  have hNoHalf : (Value.mapping l.merged).hasHalvedReference = false :=
    (Value.isWhole_mapping_iff l.merged).mpr hWhole.merged
  rw [load]
  dsimp only
  rw [hHeld]
  dsimp only
  rw [hBase]
  dsimp only
  rw [layOverlay_of_hasOverlay l.base hRead.overlay]
  dsimp only
  rw [Loaded.substitute, ← Layers.merged, hNoHalf]
  rfl

/-- Loading gives each key of a section the value of the first layer that defines it, with the variables of the
environment put in; the base section that no other layer names stays as it is. Both are for the sections that the
overrides of other sections do not reach, and all references to variables can be looked up. -/
theorem exists_settings_of_layers
    (hHeld : Loaded.readEnvironment { environment := env } t settingsPath = (held, .ok ()))
    (hRead : l.ReadFrom t settingsPath environment) (hWhole : l.IsWhole) :
    ∃ settings, (load t env settingsPath environment).2 = .ok (.mapping settings) ∧
      (∀ name key, Unreached l.base l.overrides name → l.IsFlat name key →
        settingOf? settings name key = (l.settingOf? name key).map (Value.substitute held.environment)) ∧
      (∀ name, Unreached l.base l.overrides name → valueOf? l.overrides name = none → valueOf? l.rest name = none →
        valueOf? settings name =
          (valueOf? (updatedEntries [] l.base) name).map (Value.substitute held.environment)) ∧
      (∀ name, (valueOf? settings name).isSome =
        ((valueOf? l.rest name).isSome || (valueOf? l.overrides name).isSome || (valueOf? l.base name).isSome)) ∧
      valueOf? l.rest (.text overridesKey) = none := by
  refine ⟨_, load_of_layers hHeld hRead hWhole, ?_, ?_, ?_, hRead.overlay.valueOf?_overridesKey⟩
  · intro name key hUnreached hFlat
    rw [settingOf?_substituteEntries, Layers.settingOf?_merged hRead.overlay.uniqueKeys hUnreached hFlat]
  · intro name hUnreached hOverrides hRest
    rw [valueOf?_substituteEntries, Layers.valueOf?_merged_of_none hUnreached hOverrides hRest]
  · intro name
    rw [valueOf?_substituteEntries, Option.isSome_map, Layers.isSome_merged]

end

def threeLayers : FileTree :=
  settingsWith "a:\n  k: 1\n  m: 1\n  n: $\x7bHOME\x7d\nb:\n  k: 1\n"
    "overrides:\n  a:\n    k: 2\n    m: 2\na:\n  k: 3\n"

/-- The rest of the overlay, its overrides and the base decide one key each, and the base one section. -/
theorem load_threeLayers :
    ∃ settings, (load threeLayers [("HOME", "/h")] settingsFile (some "ci")).2 = .ok (.mapping settings) ∧
      settingOf? settings (.text "a") (.text "k") = some (.scalar (.int 3)) ∧
      settingOf? settings (.text "a") (.text "m") = some (.scalar (.int 2)) ∧
      settingOf? settings (.text "a") (.text "n") = some (.text "/h") ∧
      valueOf? settings (.text "b") = some (.mapping [(.text "k", .scalar (.int 1))]) := by
  let l : Layers := {
    base := [(.text "a", .mapping 1 [(.text "k", .scalar (.int 1)), (.text "m", .scalar (.int 1)),
      (.text "n", .scalar (.text "$\x7bHOME\x7d"))]), (.text "b", .mapping 2 [(.text "k", .scalar (.int 1))])]
    overrides := [(.text "a", .mapping [(.text "k", .scalar (.int 2)), (.text "m", .scalar (.int 2))])]
    rest := [(.text "a", .mapping [(.text "k", .scalar (.int 3))])] }
  have hHeld : Loaded.readEnvironment { environment := [("HOME", "/h")] } threeLayers settingsFile =
      ({ environment := [("HOME", "/h")] }, .ok ()) := by rfl
  have hBase : readBase threeLayers settingsFile = .ok (.mapping 0 l.base) := by decide +kernel
  have hRead : readOverlay threeLayers settingsFile (some "ci") =
      .ok (some (.mapping 0 [(.text "overrides", .mapping 1 [(.text "a",
        .mapping 2 [(.text "k", .scalar (.int 2)), (.text "m", .scalar (.int 2))])]),
        (.text "a", .mapping 3 [(.text "k", .scalar (.int 3))])])) := by decide +kernel
  have hOverlay : HasOverlay threeLayers settingsFile (some "ci") l.overrides l.rest := .file hRead rfl rfl
  have hUnreached : ∀ name, Unreached l.base l.overrides name := unreached_of_nodup (by decide) l.overrides
  have hWhole : l.IsWhole := by constructor <;> decide
  obtain ⟨settings, hLoad, hSettings, hSections, -, -⟩ :=
    exists_settings_of_layers hHeld ⟨⟨0, hBase⟩, hOverlay⟩ hWhole
  refine ⟨settings, hLoad, ?_, ?_, ?_, ?_⟩
  · exact hSettings _ _ (hUnreached _) (by decide)
  · exact hSettings _ _ (hUnreached _) (by decide)
  · exact hSettings _ _ (hUnreached _) (by decide)
  · exact hSections _ (hUnreached _) rfl rfl

/-- One mapping at two places, one of which is overridden. -/
def sharedSection : FileTree :=
  settingsWith "a: &x\n  k: 1\nb: *x\n" "overrides:\n  a:\n    k: 2\n"

/-- The override of the one section changes the other, which neither part of the overlay names. -/
theorem load_sharedSection :
    ∃ (l : Layers) (settings : Entries), l.ReadFrom sharedSection settingsFile (some "ci") ∧ l.IsWhole ∧
      valueOf? l.rest (.text "b") = none ∧ valueOf? l.overrides (.text "b") = none ∧
      l.IsFlat (.text "b") (.text "k") ∧ l.settingOf? (.text "b") (.text "k") = some (.scalar (.int 1)) ∧
      (load sharedSection [] settingsFile (some "ci")).2 = .ok (.mapping settings) ∧
      settingOf? settings (.text "b") (.text "k") = some (.scalar (.int 2)) := by
  let l : Layers := {
    base := [(.text "a", .mapping 1 [(.text "k", .scalar (.int 1))]),
      (.text "b", .mapping 1 [(.text "k", .scalar (.int 1))])]
    overrides := [(.text "a", .mapping [(.text "k", .scalar (.int 2))])]
    rest := [] }
  have hHeld : Loaded.readEnvironment { environment := [] } sharedSection settingsFile =
      ({ environment := [] }, .ok ()) := by rfl
  have hBase : readBase sharedSection settingsFile = .ok (.mapping 0 l.base) := by decide +kernel
  have hRead : readOverlay sharedSection settingsFile (some "ci") = .ok (some (.mapping 0 [(.text "overrides",
      .mapping 1 [(.text "a", .mapping 2 [(.text "k", .scalar (.int 2))])])])) := by decide +kernel
  have hOverlay : HasOverlay sharedSection settingsFile (some "ci") l.overrides l.rest := .file hRead rfl rfl
  have hWhole : l.IsWhole := by constructor <;> decide
  have hReadFrom : l.ReadFrom sharedSection settingsFile (some "ci") := ⟨⟨0, hBase⟩, hOverlay⟩
  exact ⟨l, _, hReadFrom, hWhole, rfl, rfl, by decide, rfl, load_of_layers hHeld hReadFrom hWhole, rfl⟩

end ScenarioRunner.Settings
