import ScenarioRunner.Proofs.Settings.LoadFaults

/-!
# Which settings are refused

Settings of a wrong shape are refused at most places, but not everywhere. Main statement: loading the settings and
reading the section of the runner has a result or is refused, except for a list of causes for which a fault escapes.
-/

namespace ScenarioRunner.Settings

open ScenarioRunner.Files

set_option autoImplicit false

/-! ## The section of the runner -/

/-- A setting with a number that is too long to be shown. What comes after a setting that is refused is not shown. -/
inductive ShowsLong (entries : Entries) : Prop
  | runVariables (hVariables : (entries.value "env_variables").isSection = true)
    (hLong : (entries.value "env_variables").hasLong = true)
  | features (hVariables : (entries.value "env_variables").isSection = true)
    (hFeatures : (entries.value "features").isListing = true) (hLong : (entries.value "features").hasLong = true)
  | cliOptions (hVariables : (entries.value "env_variables").isSection = true)
    (hFeatures : (entries.value "features").isListing = true)
    (hOptions : (entries.value "cli_options").isListing = true) (hLong : (entries.value "cli_options").hasLong = true)
  | single {key : String} (hKey : key ∈ ["cucumber_path", "node_path", "aggregate_outlines"])
    (hVariables : (entries.value "env_variables").isSection = true)
    (hFeatures : (entries.value "features").isListing = true)
    (hOptions : (entries.value "cli_options").isListing = true) (hLong : (entries.value key).hasLong = true)

theorem escapes_shown_iff {α : Type} (entries : Entries) (cucumberPath nodePath : String)
    (result : Environment → List String → List String → List String → String → String → Bool → α) :
    Escapes (do
        let configured ← configuredVariables (entries.value "env_variables")
        let features ← textList Value.shown (entries.value "features") "features"
        let patterns ← textList Value.sought (entries.value "features") "features"
        let cliOptions ← textList Value.shown (entries.value "cli_options") "cli_options"
        let cucumberPath ← shownOr (entries.value "cucumber_path") cucumberPath
        let nodePath ← shownOr (entries.value "node_path") nodePath
        let aggregateOutlines ← flag (entries.value "aggregate_outlines") "aggregate_outlines"
        return result configured features patterns cliOptions cucumberPath nodePath aggregateOutlines) ↔
      ShowsLong entries := by
  have hShown := fails_textList Value.fails_shown (entries.value "features") "features"
  have hSought := fails_textList Value.fails_sought (entries.value "features") "features"
  refine Iff.trans (b := (entries.value "env_variables").isSection = true ∧ (entries.value "env_variables").hasLong = true ∨
    ¬(entries.value "env_variables").isSection = false ∧
      ((entries.value "features").isListing = true ∧ (entries.value "features").hasLong = true ∨
        ¬(entries.value "features").isListing = false ∧
          ((entries.value "cli_options").isListing = true ∧ (entries.value "cli_options").hasLong = true ∨
            ¬(entries.value "cli_options").isListing = false ∧
              ((entries.value "cucumber_path").hasLong = true ∨ (entries.value "node_path").hasLong = true ∨
                (entries.value "aggregate_outlines").hasLong = true)))) ?_ ?_
  · refine (fails_configuredVariables _).escapes_bind_iff fun _ _ => ?_
    refine hShown.escapes_bind_iff fun _ hFeatures => ?_
    -- The same value is read once more, as it is sought among files; this adds no cause.
    obtain ⟨hListing, hShort⟩ := hShown.not_of_ok hFeatures
    refine Iff.trans (hSought.escapes_bind_iff fun _ _ => ?_) ((or_iff_right hShort).trans (and_iff_right hListing))
    refine (fails_textList Value.fails_shown _ _).escapes_bind_iff fun _ _ => ?_
    refine (fails_shownOr _ _).escapes_bind_iff_or fun _ _ => (fails_shownOr _ _).escapes_bind_iff_or fun _ _ => ?_
    rw [escapes_bind_iff, escapes_flag_iff]
    exact or_iff_left fun ⟨_, _, h⟩ => not_escapes_ok _ h
  · simp only [Bool.not_eq_false]
    constructor
    · rintro (⟨hVariables, hLong⟩ | ⟨hVariables, ⟨hFeatures, hLong⟩ | ⟨hFeatures, ⟨hOptions, hLong⟩ | ⟨hOptions, hLong⟩⟩⟩)
      · exact .runVariables hVariables hLong
      · exact .features hVariables hFeatures hLong
      · exact .cliOptions hVariables hFeatures hOptions hLong
      · rcases hLong with hLong | hLong | hLong
        all_goals exact .single (by simp) hVariables hFeatures hOptions hLong
    · intro h
      cases h with
      | runVariables hVariables hLong => exact .inl ⟨hVariables, hLong⟩
      | features hVariables hFeatures hLong => exact .inr ⟨hVariables, .inl ⟨hFeatures, hLong⟩⟩
      | cliOptions hVariables hFeatures hOptions hLong =>
        exact .inr ⟨hVariables, .inr ⟨hFeatures, .inl ⟨hOptions, hLong⟩⟩⟩
      | single hKey hVariables hFeatures hOptions hLong =>
        refine .inr ⟨hVariables, .inr ⟨hFeatures, .inr ⟨hOptions, ?_⟩⟩⟩
        rw [List.mem_cons, List.mem_cons, List.mem_singleton] at hKey
        rcases hKey with rfl | rfl | rfl
        · exact .inl hLong
        · exact .inr (.inl hLong)
        · exact .inr (.inr hLong)

/-- Why a fault escapes while the section of the runner is read: a path is no text, the file of variables makes trouble,
or a number is too long to be shown. -/
inductive SectionEscapes (t : FileTree) (base : Path) (entries : Entries) : Prop
  | cwd (h : (entries.value "cwd").isPath = false)
  | envFile (h : (entries.value "env_file").isPath = false)
  | envFileTroubled {cwd : Option Path} {file : Path} (hCwd : path? Value.sought (entries.value "cwd") = .ok cwd)
    (hFile : path? Value.sought (entries.value "env_file") = .ok (some file))
    (h : IsTroubled t ((directoryOf base cwd).join file))
  | shown (h : ShowsLong entries)

theorem escapes_ofSettings_iff (t : FileTree) (env : Environment) (settings : Value) (base : Path) :
    Escapes (RunnerSettings.ofSettings t env settings base) ↔
      ∃ entries, sectionOf settings = .ok entries ∧ SectionEscapes t base entries := by
  unfold RunnerSettings.ofSettings
  rw [escapes_bind_iff, (fails_sectionOf settings).escapes_iff, false_or]
  refine exists_congr fun entries => and_congr_right fun _ => ?_
  have hShownCwd := fails_path? Value.fails_shown (entries.value "cwd")
  have hSoughtCwd := fails_path? Value.fails_sought (entries.value "cwd")
  have hSoughtFile := fails_path? Value.fails_sought (entries.value "env_file")
  constructor
  · intro h
    rcases escapes_bind_iff.mp h with hCwd | ⟨_, _, h⟩
    · exact .cwd (hShownCwd.escapes_iff.mp hCwd)
    rcases escapes_bind_iff.mp h with hCwd | ⟨cwd, hCwd, h⟩
    · exact .cwd (hSoughtCwd.escapes_iff.mp hCwd)
    rcases escapes_bind_iff.mp h with hFile | ⟨file, hFile, h⟩
    · exact .envFile (hSoughtFile.escapes_iff.mp hFile)
    rcases escapes_bind_iff.mp h with hInFile | ⟨_, _, h⟩
    · obtain ⟨p, rfl, hTroubled⟩ := (fails_fileVariables t env _ file).escapes_iff.mp hInFile
      exact .envFileTroubled hCwd hFile hTroubled
    · exact .shown ((escapes_shown_iff entries _ _ _).mp h)
  · intro h
    cases h with
    | cwd h => exact escapes_bind_iff.mpr (.inl (hShownCwd.escapes_iff.mpr h))
    | envFile h =>
      refine hShownCwd.escapes_bind fun _ _ => hSoughtCwd.escapes_bind fun _ _ => ?_
      exact escapes_bind_iff.mpr (.inl (hSoughtFile.escapes_iff.mpr h))
    | envFileTroubled hCwd hFile h =>
      refine hShownCwd.escapes_bind fun _ _ => escapes_bind_iff.mpr (.inr ⟨_, hCwd, ?_⟩)
      refine escapes_bind_iff.mpr (.inr ⟨_, hFile, escapes_bind_iff.mpr (.inl ?_)⟩)
      exact (fails_fileVariables t env _ _).escapes_iff.mpr ⟨_, rfl, h⟩
    | shown h =>
      refine hShownCwd.escapes_bind fun _ _ => hSoughtCwd.escapes_bind fun _ _ => ?_
      refine hSoughtFile.escapes_bind fun file _ => (fails_fileVariables t env _ file).escapes_bind fun _ _ => ?_
      exact (escapes_shown_iff entries _ _ _).mpr h

/-! ## The settings of the runner from the files -/

def runnerSettings (t : FileTree) (env : Environment) (settingsPath : Path) (environment : Option String)
    (base : Path) : Except Fault RunnerSettings := do
  let (loaded, settings) := load t env settingsPath environment
  RunnerSettings.ofSettings t loaded.environment (← settings) base

/-- There are settings of the runner, or they are refused, unless a fault escapes while they are loaded or while the
section of the runner is read from what has been loaded. -/
theorem ok_or_refused_runnerSettings_iff (t : FileTree) (env : Environment) (settingsPath : Path)
    (environment : Option String) (base : Path) :
    ((∃ settings, runnerSettings t env settingsPath environment base = .ok settings) ∨
        Refused (runnerSettings t env settingsPath environment base)) ↔
      ¬LoadEscapes t env settingsPath environment ∧
        ∀ settings entries, (load t env settingsPath environment).2 = .ok settings → sectionOf settings = .ok entries →
          ¬SectionEscapes t base entries := by
  have hEscapes : Escapes (runnerSettings t env settingsPath environment base) ↔
      LoadEscapes t env settingsPath environment ∨ ∃ settings, (load t env settingsPath environment).2 = .ok settings ∧
        ∃ entries, sectionOf settings = .ok entries ∧ SectionEscapes t base entries := by
    refine escapes_bind_iff.trans (or_congr (escapes_load_iff t env settingsPath environment) ?_)
    exact exists_congr fun settings => and_congr_right fun _ => escapes_ofSettings_iff t _ settings base
  rw [← not_escapes_iff, hEscapes, not_or]
  simp only [not_exists, not_and]
  exact and_congr_right fun _ => ⟨fun h settings entries hLoad => h settings hLoad entries,
    fun h settings hLoad entries => h settings entries hLoad⟩

/-- The section of the first file is a mapping, and that of the second one a number, which is refused. -/
theorem not_loadEscapes_of_section :
    (∃ settings, runnerSettings (settingsWith "cucumber_runner:\n  features: a.feature\n" "\x7b\x7d") [] settingsFile
        (some "ci") ⟨"/", []⟩ = .ok settings ∧ settings.features = ["a.feature"]) ∧
      Refused (runnerSettings (settingsWith "cucumber_runner: 1\n" "\x7b\x7d") [] settingsFile (some "ci") ⟨"/", []⟩) ∧
      ¬LoadEscapes (settingsWith "cucumber_runner:\n  features: a.feature\n" "\x7b\x7d") [] settingsFile (some "ci") ∧
      ¬LoadEscapes (settingsWith "cucumber_runner: 1\n" "\x7b\x7d") [] settingsFile (some "ci") := by
  have hAccepted : ∃ settings ∈ (runnerSettings (settingsWith "cucumber_runner:\n  features: a.feature\n" "\x7b\x7d") []
      settingsFile (some "ci") ⟨"/", []⟩).toOption, settings.features = ["a.feature"] := by
    decide +kernel
  have hRefused : runnerSettings (settingsWith "cucumber_runner: 1\n" "\x7b\x7d") [] settingsFile (some "ci") ⟨"/", []⟩ =
      .error (.settings .sectionNotMapping) := by
    decide +kernel
  obtain ⟨settings, hMem, hFeatures⟩ := hAccepted
  have hOk := eq_ok_of_mem_toOption hMem
  exact ⟨⟨settings, hOk, hFeatures⟩, ⟨_, hRefused⟩,
    ((ok_or_refused_runnerSettings_iff _ _ _ _ _).mp (.inl ⟨settings, hOk⟩)).1,
    ((ok_or_refused_runnerSettings_iff _ _ _ _ _).mp (.inr ⟨_, hRefused⟩)).1⟩

/-- The overlay has nothing as its overrides: both files can be read, and a fault escapes. -/
theorem escapes_of_empty_overrides :
    readBase (settingsWith "\x7b\x7d" "overrides:\n") settingsFile = .ok (.mapping 0 []) ∧
      readOverlay (settingsWith "\x7b\x7d" "overrides:\n") settingsFile (some "ci") =
        .ok (some (.mapping 0 [(.text "overrides", .scalar .null)])) ∧
      Escapes (runnerSettings (settingsWith "\x7b\x7d" "overrides:\n") [] settingsFile (some "ci") ⟨"/", []⟩) := by
  have hBase : readBase (settingsWith "\x7b\x7d" "overrides:\n") settingsFile = .ok (.mapping 0 []) := by
    decide +kernel
  have hOverlay : readOverlay (settingsWith "\x7b\x7d" "overrides:\n") settingsFile (some "ci") =
      .ok (some (.mapping 0 [(.text "overrides", .scalar .null)])) := by
    decide +kernel
  have hLoad := (escapes_load_iff _ [] _ _).mpr (.overlay hBase hOverlay (.overrides rfl rfl rfl))
  exact ⟨hBase, hOverlay, escapes_bind_iff.mpr (.inl hLoad)⟩

end ScenarioRunner.Settings
