import Mathlib.Tactic.MkIffOfInductiveProp
import ScenarioRunner.Proofs.Settings.LoadFaults

/-!
# The working directory

Main statement: there are settings of the runner exactly if each setting can be read, and then a configured working
directory is taken from the base, and a file of variables from the working directory. Without a configured one the base
is taken from itself, so that a relative base is entered twice.
-/

namespace ScenarioRunner.Settings

open ScenarioRunner.Files

set_option autoImplicit false

/-! ## Paths in settings -/

theorem join_of_absolute {p q : Path} (h : q.isAbsolute = true) : p.join q = q := by
  rw [Path.join, if_pos h]

theorem join_of_relative {p q : Path} (h : q.isAbsolute = false) : p.join q = { p with names := p.names ++ q.names } := by
  rw [Path.join, h]
  rfl

theorem join_self_eq_self {p : Path} (h : p.isAbsolute = true ∨ p.names = []) : p.join p = p := by
  cases hAbsolute : p.isAbsolute with
  | true => exact join_of_absolute hAbsolute
  | false =>
    have hNames := h.resolve_left (by rw [hAbsolute]; exact Bool.false_ne_true)
    obtain ⟨root, names⟩ := p
    cases hNames
    exact join_of_relative hAbsolute

section

variable {form : Value → Except Fault String} {base : Path} {v : Value}

/-- Where the path in a setting leads from a directory: a relative path goes on from there. -/
inductive Reaches (form : Value → Except Fault String) (dir : Path) (v : Value) : Path → Prop
  | absolute {text : String} (hSet : v.isSet = true) (hText : form v = .ok text)
    (h : (Path.ofText text).isAbsolute = true) : Reaches form dir v (Path.ofText text)
  | relative {text : String} (hSet : v.isSet = true) (hText : form v = .ok text)
    (h : (Path.ofText text).isAbsolute = false) :
    Reaches form dir v { dir with names := dir.names ++ (Path.ofText text).names }

/-- The directory that is worked in. A relative base with names is entered twice if no directory is set. -/
inductive WorksAt (form : Value → Except Fault String) (base : Path) (v : Value) : Path → Prop
  | base (hUnset : v.isSet = false) (h : base.isAbsolute = true ∨ base.names = []) : WorksAt form base v base
  | baseTwice (hUnset : v.isSet = false) (hRelative : base.isAbsolute = false) (hNames : base.names ≠ []) :
    WorksAt form base v { base with names := base.names ++ base.names }
  | configured {dir : Path} (h : Reaches form base v dir) : WorksAt form base v dir

theorem path?_congr {form' : Value → Except Fault String} (h : form v = form' v) : path? form v = path? form' v := by
  rw [path?, path?, h]

theorem path?_of_not_isSet (h : v.isSet = false) : path? form v = .ok none := by
  rw [path?, h]
  rfl

theorem eq_some_of_path?_eq_ok {p? : Option Path} (hSet : v.isSet = true) (h : path? form v = .ok p?) :
    ∃ text, form v = .ok text ∧ p? = some (Path.ofText text) := by
  rw [path?, hSet] at h
  cases hText : v.isText with
  | false =>
    rw [hText] at h
    cases h
  | true =>
    rw [hText] at h
    obtain ⟨text, hForm, h⟩ := exists_of_bind_eq_ok h
    cases h
    exact ⟨text, hForm, rfl⟩

theorem not_isSet_of_path? (h : path? form v = .ok none) : v.isSet = false := by
  cases hSet : v.isSet with
  | false => rfl
  | true =>
    obtain ⟨_, -, hNone⟩ := eq_some_of_path?_eq_ok hSet h
    cases hNone

theorem reaches_iff {dir file : Path} {p? : Option Path} (hPath : path? form v = .ok p?) :
    Reaches form dir v file ↔ ∃ p, p? = some p ∧ file = dir.join p := by
  constructor
  · intro h
    cases h with
    | absolute hSet hText h =>
      obtain ⟨text, hForm, rfl⟩ := eq_some_of_path?_eq_ok hSet hPath
      cases hText.symm.trans hForm
      exact ⟨_, rfl, (join_of_absolute h).symm⟩
    | relative hSet hText h =>
      obtain ⟨text, hForm, rfl⟩ := eq_some_of_path?_eq_ok hSet hPath
      cases hText.symm.trans hForm
      exact ⟨_, rfl, (join_of_relative h).symm⟩
  · rintro ⟨p, rfl, rfl⟩
    cases hSet : v.isSet with
    | false => cases (path?_of_not_isSet hSet).symm.trans hPath
    | true =>
      obtain ⟨text, hForm, hText⟩ := eq_some_of_path?_eq_ok hSet hPath
      cases hText
      cases h : (Path.ofText text).isAbsolute with
      | true =>
        rw [join_of_absolute h]
        exact .absolute hSet hForm h
      | false =>
        rw [join_of_relative h]
        exact .relative hSet hForm h

theorem worksAt_iff {dir : Path} {p? : Option Path} (hPath : path? form v = .ok p?) :
    WorksAt form base v dir ↔ dir = directoryOf base p? := by
  constructor
  · intro h
    cases h with
    | base hUnset h =>
      cases (path?_of_not_isSet hUnset).symm.trans hPath
      exact (join_self_eq_self h).symm
    | baseTwice hUnset hRelative hNames =>
      cases (path?_of_not_isSet hUnset).symm.trans hPath
      exact (join_of_relative hRelative).symm
    | configured h =>
      obtain ⟨p, rfl, rfl⟩ := (reaches_iff hPath).mp h
      rfl
  · rintro rfl
    cases p? with
    | some p => exact .configured ((reaches_iff hPath).mpr ⟨p, rfl, rfl⟩)
    | none =>
      have hUnset := not_isSet_of_path? hPath
      by_cases h : base.isAbsolute = true ∨ base.names = []
      · have hBase : directoryOf base none = base := join_self_eq_self h
        rw [hBase]
        exact .base hUnset h
      · obtain ⟨hRelative, hNames⟩ := not_or.mp h
        rw [Bool.not_eq_true] at hRelative
        have hTwice : directoryOf base none = { base with names := base.names ++ base.names } :=
          join_of_relative hRelative
        rw [hTwice]
        exact .baseTwice hUnset hRelative hNames

end

/-! ## The file of variables -/

/-- The variables of the file that a setting names, sought from a directory. A missing file has none. -/
inductive VariablesFrom (t : FileTree) (env : Environment) (dir : Path) (v : Value) : Environment → Prop
  | unset (h : v.isSet = false) : VariablesFrom t env dir v []
  | missing {file : Path} (hFile : Reaches Value.sought dir v file) (h : t.isPresent file = .ok false) :
    VariablesFrom t env dir v []
  | file {file : Path} {inFile : Environment} (hFile : Reaches Value.sought dir v file)
    (hPresent : t.isPresent file = .ok true) (h : readVariables t env .fileFirst file = .ok inFile) :
    VariablesFrom t env dir v inFile

theorem variablesFrom_of_fileVariables {t : FileTree} {env inFile : Environment} {dir : Path} {v : Value}
    {p? : Option Path} (hPath : path? Value.sought v = .ok p?) (h : fileVariables t env dir p? = .ok inFile) :
    VariablesFrom t env dir v inFile := by
  cases p? with
  | none =>
    cases h
    exact .unset (not_isSet_of_path? hPath)
  | some p =>
    have hFile : Reaches Value.sought dir v (dir.join p) := (reaches_iff hPath).mpr ⟨p, rfl, rfl⟩
    obtain ⟨present, hPresent, h⟩ := exists_of_bind_eq_ok h
    cases present with
    | false =>
      cases h
      exact .missing hFile hPresent
    | true => exact .file hFile hPresent h

theorem exists_fileVariables_eq_ok_iff (t : FileTree) (env : Environment) {base : Path} {v w : Value}
    {dir? file? : Option Path} (hDir : path? Value.sought v = .ok dir?) (hFile : path? Value.sought w = .ok file?) :
    (∃ inFile, fileVariables t env (directoryOf base dir?) file? = .ok inFile) ↔
      ∀ dir file, WorksAt Value.sought base v dir → Reaches Value.sought dir w file → ¬IsTroubled t file := by
  refine (fails_fileVariables t env _ file?).exists_ok_iff_not.trans ?_
  constructor
  · intro h dir file hDirectory hReaches hTroubled
    obtain rfl := (worksAt_iff hDir).mp hDirectory
    obtain ⟨p, rfl, rfl⟩ := (reaches_iff hFile).mp hReaches
    exact h ⟨p, rfl, hTroubled⟩
  · rintro h ⟨p, rfl, hTroubled⟩
    exact h _ _ ((worksAt_iff hDir).mpr rfl) ((reaches_iff hFile).mpr ⟨p, rfl, rfl⟩) hTroubled

/-! ## The section of the runner -/

/-- Every setting beside the working directory can be read. -/
@[mk_iff]
structure IsReadable (t : FileTree) (base : Path) (entries : Entries) : Prop where
  envFile : (entries.value "env_file").isPath = true
  not_isTroubled : ∀ dir file, WorksAt Value.sought base (entries.value "cwd") dir →
    Reaches Value.sought dir (entries.value "env_file") file → ¬IsTroubled t file
  runVariables : (entries.value "env_variables").isSection = true ∧ (entries.value "env_variables").hasLong = false
  features : (entries.value "features").isListing = true ∧ (entries.value "features").hasLong = false
  cliOptions : (entries.value "cli_options").isListing = true ∧ (entries.value "cli_options").hasLong = false
  cucumberPath : (entries.value "cucumber_path").hasLong = false
  nodePath : (entries.value "node_path").hasLong = false
  aggregateOutlines : (entries.value "aggregate_outlines").IsFlag

/-- The places that the settings of the runner come from. The two directories are one unless the setting has half of a
character in it. -/
structure IsPlaced (t : FileTree) (env : Environment) (base : Path) (entries : Entries) (s : RunnerSettings) : Prop where
  cwd : WorksAt Value.shown base (entries.value "cwd") s.cwd
  sought : WorksAt Value.sought base (entries.value "cwd") s.base
  sought_eq_cwd : (∀ points, entries.value "cwd" ≠ .scalar (.halved points)) → s.base = s.cwd
  runVariables : ∃ inFile configured, VariablesFrom t env s.base (entries.value "env_file") inFile ∧
    configuredVariables (entries.value "env_variables") = .ok configured ∧ s.runVariables = inFile.update configured

theorem Value.sought_eq_shown {v : Value} (h : ∀ points, v ≠ .scalar (.halved points)) : v.sought = v.shown := by
  unfold Value.sought
  split
  · next points => exact absurd rfl (h points)
  · rfl

section

variable (t : FileTree) (env : Environment) {settings : Value} (base : Path) {entries : Entries}

theorem exists_ofSettings_eq_ok_iff (hSection : sectionOf settings = .ok entries)
    (hCwd : (entries.value "cwd").isPath = true) :
    (∃ s, RunnerSettings.ofSettings t env settings base = .ok s) ↔ IsReadable t base entries := by
  obtain ⟨_, hShown⟩ := (exists_path?_eq_ok_iff Value.fails_shown (entries.value "cwd")).mpr hCwd
  obtain ⟨_, hSought⟩ := (exists_path?_eq_ok_iff Value.fails_sought (entries.value "cwd")).mpr hCwd
  have hFeatures := (fails_textList Value.fails_shown (entries.value "features") "features").exists_ok_iff_and
  have hPatterns := (fails_textList Value.fails_sought (entries.value "features") "features").exists_ok_iff_and
  have hOptions := (fails_textList Value.fails_shown (entries.value "cli_options") "cli_options").exists_ok_iff_and
  unfold RunnerSettings.ofSettings
  rw [isReadable_iff, exists_bind_eq_ok_iff_of_eq hSection, exists_bind_eq_ok_iff_of_eq hShown,
    exists_bind_eq_ok_iff_of_eq hSought]
  refine exists_bind_eq_ok_iff (exists_path?_eq_ok_iff Value.fails_sought _) fun _ hFile => ?_
  refine exists_bind_eq_ok_iff (exists_fileVariables_eq_ok_iff t env hSought hFile) fun _ _ => ?_
  refine exists_bind_eq_ok_iff (fails_configuredVariables _).exists_ok_iff_and fun _ _ => ?_
  refine exists_bind_eq_ok_iff hFeatures fun _ hRead => ?_
  -- The features are read once more, as they are sought among files; this adds no condition.
  obtain ⟨_, hRead⟩ := hPatterns.mpr (hFeatures.mp ⟨_, hRead⟩)
  rw [exists_bind_eq_ok_iff_of_eq hRead]
  refine exists_bind_eq_ok_iff hOptions fun _ _ => ?_
  refine exists_bind_eq_ok_iff (exists_shownOr_eq_ok_iff _ _) fun _ _ => ?_
  refine exists_bind_eq_ok_iff (exists_shownOr_eq_ok_iff _ _) fun _ _ => ?_
  refine (exists_bind_eq_ok_iff (exists_flag_eq_ok_iff _ _) fun _ _ => iff_true_intro ⟨_, rfl⟩).trans ?_
  rw [and_true]

theorem isPlaced_of_ofSettings (hSection : sectionOf settings = .ok entries) {s : RunnerSettings}
    (h : RunnerSettings.ofSettings t env settings base = .ok s) : IsPlaced t env base entries s := by
  unfold RunnerSettings.ofSettings at h
  obtain ⟨other, hOther, h⟩ := exists_of_bind_eq_ok h
  cases hSection.symm.trans hOther
  obtain ⟨dir?, hDir, h⟩ := exists_of_bind_eq_ok h
  obtain ⟨sought?, hSought, h⟩ := exists_of_bind_eq_ok h
  obtain ⟨file?, hFile, h⟩ := exists_of_bind_eq_ok h
  obtain ⟨inFile, hInFile, h⟩ := exists_of_bind_eq_ok h
  obtain ⟨configured, hConfigured, h⟩ := exists_of_bind_eq_ok h
  obtain ⟨_, -, h⟩ := exists_of_bind_eq_ok h
  obtain ⟨_, -, h⟩ := exists_of_bind_eq_ok h
  obtain ⟨_, -, h⟩ := exists_of_bind_eq_ok h
  obtain ⟨_, -, h⟩ := exists_of_bind_eq_ok h
  obtain ⟨_, -, h⟩ := exists_of_bind_eq_ok h
  obtain ⟨_, -, h⟩ := exists_of_bind_eq_ok h
  cases h
  refine ⟨(worksAt_iff hDir).mpr rfl, (worksAt_iff hSought).mpr rfl, fun hWhole => ?_,
    inFile, configured, variablesFrom_of_fileVariables hFile hInFile, hConfigured, rfl⟩
  rw [path?_congr (Value.sought_eq_shown hWhole)] at hSought
  cases hDir.symm.trans hSought
  rfl

/-- If the working directory is not set or is a text, there are settings of the runner exactly if each other setting can be
read, and they come from the right places. -/
theorem ofSettings_isPlaced (hSection : sectionOf settings = .ok entries) (hCwd : (entries.value "cwd").isPath = true) :
    ((∃ s, RunnerSettings.ofSettings t env settings base = .ok s) ↔ IsReadable t base entries) ∧
      ∀ s, RunnerSettings.ofSettings t env settings base = .ok s → IsPlaced t env base entries s :=
  ⟨exists_ofSettings_eq_ok_iff t env base hSection hCwd, fun _ => isPlaced_of_ofSettings t env base hSection⟩

end

def settingsOf (entries : Entries) : Value :=
  .mapping [(.text sectionKey, .mapping entries)]

theorem sectionOf_settingsOf (entries : Entries) : sectionOf (settingsOf entries) = .ok entries := by
  rfl

def nestedTree : FileTree where
  workingDir := { root := "/" }
  entries := [(["sub"], .directory), (["sub", "web"], .directory),
    (["sub", "web", "web.env"], .file (Text.encodeUtf8 "PORT=1\n"))]

def nestedSection : Entries :=
  [(.text "cwd", .text "web"), (.text "env_file", .text "web.env")]

/-- The file is found in the directory that is set. -/
theorem ofSettings_isPlaced_of_nested :
    sectionOf (settingsOf nestedSection) = .ok nestedSection ∧ (nestedSection.value "cwd").isPath = true ∧
      IsReadable nestedTree ⟨"", ["sub"]⟩ nestedSection ∧
      ∃ s, RunnerSettings.ofSettings nestedTree [] (settingsOf nestedSection) ⟨"", ["sub"]⟩ = .ok s ∧
        s.cwd = ⟨"", ["sub", "web"]⟩ ∧ s.runVariables = [("PORT", "1")] ∧
        IsPlaced nestedTree [] ⟨"", ["sub"]⟩ nestedSection s := by
  have hSection := sectionOf_settingsOf nestedSection
  have hCwd : (nestedSection.value "cwd").isPath = true := by decide
  obtain ⟨hReadable, hPlaced⟩ := ofSettings_isPlaced nestedTree [] ⟨"", ["sub"]⟩ hSection hCwd
  have hSettings : RunnerSettings.ofSettings nestedTree [] (settingsOf nestedSection) ⟨"", ["sub"]⟩ =
      .ok { cwd := ⟨"", ["sub", "web"]⟩, runVariables := [("PORT", "1")] } := by
    decide +kernel
  exact ⟨hSection, hCwd, hReadable.mp ⟨_, hSettings⟩, _, hSettings, rfl, rfl, hPlaced _ hSettings⟩

/-- Without a directory the base is not always the directory that is worked in. -/
theorem not_forall_cwd_eq_base :
    ¬∀ (t : FileTree) (env : Environment) (settings : Value) (base : Path) (entries : Entries) (s : RunnerSettings),
      sectionOf settings = .ok entries → (entries.value "cwd").isSet = false →
      RunnerSettings.ofSettings t env settings base = .ok s → s.cwd = base := by
  intro h
  have hSettings : RunnerSettings.ofSettings nestedTree [] (settingsOf []) ⟨"", ["sub"]⟩ =
      .ok { cwd := ⟨"", ["sub", "sub"]⟩ } := by
    decide +kernel
  have hBase := h nestedTree [] (settingsOf []) ⟨"", ["sub"]⟩ [] _ (sectionOf_settingsOf []) rfl hSettings
  exact absurd hBase (by decide)

end ScenarioRunner.Settings
