import ScenarioRunner.Proofs.Files.Location
import ScenarioRunner.Proofs.Settings.Escape
import ScenarioRunner.Proofs.Settings.Overlay
import ScenarioRunner.Proofs.Settings.WholeReferences

/-!
# Faults while settings are loaded

Only a settings file that is no mapping is refused. Main statement: a fault escapes from loading exactly if a file cannot
be read, a variable beside the settings cannot be set, the overlay or its overrides are no mapping, or a reference in the
merged settings cannot be looked up.
-/

namespace ScenarioRunner.Settings

open ScenarioRunner.Files

set_option autoImplicit false

/-! ## Files -/

section

variable (t : FileTree)

theorem not_refused_locate (p : Path) : ¬Refused (t.locate p) := by
  have hFollow : ∀ (names here : List String), ¬Refused (names.foldlM t.follow here) := by
    intro names
    induction names with
    | nil => exact fun here => not_refused_ok here
    | cons name names ih =>
      intro here
      rw [List.foldlM_cons]
      refine not_refused_bind ?_ fun there _ => ih there
      rw [FileTree.follow]
      split_ifs
      all_goals simp [Refused]
  have hLocate : t.locate p = if p.hasNull then .error .nullCharacter
      else if pathLimit < p.text.utf8ByteSize then .error (.file .nameTooLong)
      else (t.workingDir.join p).names.foldlM t.follow [] := rfl
  rw [hLocate]
  split_ifs
  · exact (escapes_error (by simp)).not_refused
  · exact (escapes_error (by simp)).not_refused
  · exact hFollow _ _

theorem not_refused_readText (p : Path) : ¬Refused (t.readText p) := by
  refine not_refused_bind (not_refused_locate t p) fun names _ => ?_
  split
  · exact (escapes_error (by simp)).not_refused
  · exact (escapes_error (by simp)).not_refused
  · split
    · exact not_refused_ok _
    · exact (escapes_error (by simp)).not_refused

/-- The size of a name is the one thing that can go wrong. -/
theorem fails_isPresent (p : Path) :
    Fails False (t.isPresent p = .error (.file .nameTooLong)) (t.isPresent p) := by
  unfold FileTree.isPresent
  split
  · exact (fails_ok true).congr Iff.rfl (iff_of_false id (by simp))
  · exact (fails_fault (.file .nameTooLong) (by simp)).congr Iff.rfl (iff_of_true trivial rfl)
  · exact (fails_ok false).congr Iff.rfl (iff_of_false id (by simp))

/-- The text cannot be read, and not because a directory is there. -/
def IsUnreadable (p : Path) : Prop :=
  ∃ fault, t.readText p = .error fault ∧ fault ≠ .file .isDirectory

theorem fails_readVariables (env : Environment) (precedence : VariableFile.Precedence) (p : Path) :
    Fails False (IsUnreadable t p) (readVariables t env precedence p) := by
  unfold readVariables IsUnreadable
  split
  · next s hText => exact (fails_ok _).congr Iff.rfl (iff_of_false id (by simp [hText]))
  · next hText => exact (fails_ok []).congr Iff.rfl (iff_of_false id (by simp [hText]))
  · next fault hDirectory hText =>
    refine (fails_fault fault ?_).congr Iff.rfl (iff_of_true trivial ⟨fault, hText, hDirectory⟩)
    rintro reason rfl
    exact not_refused_readText t p ⟨reason, hText⟩

/-- A file that is named in the settings makes trouble if its name is too long, or if it is there and cannot be read. -/
def IsTroubled (p : Path) : Prop :=
  t.isPresent p = .error (.file .nameTooLong) ∨ t.isPresent p = .ok true ∧ IsUnreadable t p

theorem fails_fileVariables (env : Environment) (cwd : Path) (file : Option Path) :
    Fails False (∃ p, file = some p ∧ IsTroubled t (cwd.join p)) (fileVariables t env cwd file) := by
  unfold fileVariables IsTroubled
  cases file with
  | none => exact (fails_ok []).congr Iff.rfl (iff_of_false id (by simp))
  | some p =>
    have hThere : ∀ present, t.isPresent (cwd.join p) = .ok present →
        Fails False (t.isPresent (cwd.join p) = .ok true ∧ IsUnreadable t (cwd.join p))
          (if present then readVariables t env .fileFirst (cwd.join p) else .ok []) := by
      intro present hPresent
      cases present with
      | true => exact (fails_readVariables t env .fileFirst _).congr Iff.rfl (and_iff_right hPresent).symm
      | false => exact (fails_ok []).congr Iff.rfl (iff_of_false id (by simp [hPresent]))
    exact ((fails_isPresent t (cwd.join p)).bind hThere).congr Iff.rfl (by simp)

theorem not_refused_variablesBeside (env : Environment) (settingsPath : Path) :
    ¬Refused (variablesBeside t env settingsPath) := by
  refine not_refused_bind (fails_isPresent t _).refused_iff.mp fun present _ => ?_
  split
  · exact (fails_readVariables t env _ _).refused_iff.mp
  · exact not_refused_ok []

end

/-! ## Variables of the environment -/

def IsUnsettable (name value : String) : Prop :=
  '\x00' ∈ name.toList ∨ '\x00' ∈ value.toList ∨ '=' ∈ name.toList

theorem fails_checkVariable (name value : String) : Fails False (IsUnsettable name value) (checkVariable name value) := by
  unfold checkVariable
  split
  · next hNull =>
    refine (fails_fault .nullCharacter (by simp)).congr Iff.rfl (iff_of_true trivial ?_)
    rw [Bool.or_eq_true, List.contains_iff_mem, List.contains_iff_mem] at hNull
    exact hNull.elim .inl fun h => .inr (.inl h)
  · next hNull =>
    rw [Bool.or_eq_true, List.contains_iff_mem, List.contains_iff_mem, not_or] at hNull
    split
    · next hEquals =>
      exact (fails_fault .equalsInVariableName (by simp)).congr Iff.rfl
        (iff_of_true trivial (.inr (.inr (List.contains_iff_mem.mp hEquals))))
    · next hEquals =>
      refine (fails_ok ()).congr Iff.rfl (iff_of_false id ?_)
      rintro (h | h | h)
      · exact hNull.1 h
      · exact hNull.2 h
      · exact hEquals (List.contains_iff_mem.mpr h)

theorem Environment.get?_cons (entry : String × String) (env : Environment) (name : String) :
    Environment.get? (entry :: env) name = if entry.1 = name then some entry.2 else env.get? name := by
  rw [Environment.get?, List.lookup_cons]
  by_cases h : entry.1 = name
  · rw [if_pos h, beq_iff_eq.mpr h.symm]
  · rw [if_neg h, beq_eq_false_iff_ne.mpr (Ne.symm h)]
    rfl

theorem Environment.get?_set_eq_none_iff (env : Environment) (name value other : String) :
    (env.set name value).get? other = none ↔ name ≠ other ∧ env.get? other = none := by
  induction env with
  | nil =>
    rw [Environment.set, Environment.get?_cons]
    split <;> simp_all [Environment.get?]
  | cons entry env ih =>
    rw [Environment.set, Environment.get?_cons]
    split
    · next hSame =>
      rw [Environment.get?_cons, hSame]
      split <;> simp_all
    · next hDiffers =>
      rw [Environment.get?_cons]
      split
      · simp
      · exact ih

/-- Of the added variables, one that is not set before its turn cannot be set. -/
def MeetsUnsettable (env added : Environment) : Prop :=
  ∃ before name value after, added = before ++ (name, value) :: after ∧ env.get? name = none ∧
    name ∉ before.map Prod.fst ∧ IsUnsettable name value

theorem meetsUnsettable_cons_iff {env added : Environment} {name value : String} :
    MeetsUnsettable env ((name, value) :: added) ↔
      env.get? name = none ∧ IsUnsettable name value ∨
        ∃ before other w after, added = before ++ (other, w) :: after ∧ (name ≠ other ∧ env.get? other = none) ∧
          other ∉ before.map Prod.fst ∧ IsUnsettable other w := by
  constructor
  · rintro ⟨before, other, w, after, hAdded, hUnset, hBefore, hUnsettable⟩
    cases before with
    | nil =>
      cases hAdded
      exact .inl ⟨hUnset, hUnsettable⟩
    | cons entry before =>
      cases hAdded
      exact .inr ⟨before, other, w, after, rfl, ⟨(List.ne_of_not_mem_cons hBefore).symm, hUnset⟩,
        List.not_mem_of_not_mem_cons hBefore, hUnsettable⟩
  · rintro (⟨hUnset, hUnsettable⟩ | ⟨before, other, w, after, rfl, ⟨hDiffers, hUnset⟩, hRest, hUnsettable⟩)
    · exact ⟨[], name, value, added, rfl, hUnset, List.not_mem_nil, hUnsettable⟩
    · exact ⟨(name, value) :: before, other, w, after, rfl, hUnset,
        List.not_mem_cons_of_ne_of_not_mem hDiffers.symm hRest, hUnsettable⟩

theorem fails_complete (env added : Environment) : Fails False (MeetsUnsettable env added) (env.complete added).2 := by
  induction added generalizing env with
  | nil => exact (fails_ok ()).congr Iff.rfl (iff_of_false id (by simp [MeetsUnsettable]))
  | cons entry added ih =>
    obtain ⟨name, value⟩ := entry
    -- The condition on the variables before the one that fails becomes one on the environment: what is set already and
    -- what has just been set are both passed over.
    rw [meetsUnsettable_cons_iff]
    unfold Environment.complete
    split
    · next hSet =>
      have hSame : ∀ other, name ≠ other ∧ env.get? other = none ↔ env.get? other = none := fun other =>
        and_iff_right_of_imp fun hUnset hName => by simp [hName, hUnset] at hSet
      refine (ih env).congr Iff.rfl ?_
      simp only [hSame, Option.isSome_iff_ne_none.mp hSet, false_and, false_or]
      rfl
    · next hUnset =>
      rw [Bool.not_eq_true, Option.isSome_eq_false_iff, Option.isNone_iff_eq_none] at hUnset
      have hCheck := fails_checkVariable name value
      split
      · next fault hFault =>
        have hUnsettable : IsUnsettable name value := by
          by_contra hNot
          obtain ⟨_, hOk⟩ := hCheck.exists_ok id hNot
          rw [hFault] at hOk
          cases hOk
        rw [hFault] at hCheck
        exact hCheck.congr Iff.rfl (iff_of_true hUnsettable (.inl ⟨hUnset, hUnsettable⟩))
      · next hOk =>
        refine (ih (env.set name value)).congr Iff.rfl ?_
        simp only [(hCheck.not_of_ok hOk).2, and_false, false_or, ← Environment.get?_set_eq_none_iff env name value]
        rfl

theorem fails_readEnvironment (t : FileTree) (env : Environment) (settingsPath : Path) :
    Fails False (Escapes (variablesBeside t env settingsPath) ∨
      ∃ added, variablesBeside t env settingsPath = .ok added ∧ MeetsUnsettable env added)
      (Loaded.readEnvironment { environment := env } t settingsPath).2 := by
  unfold Loaded.readEnvironment
  dsimp only
  cases hAdded : variablesBeside t env settingsPath with
  | error fault =>
    have hOther : ∀ reason, fault ≠ .settings reason := by
      rintro reason rfl
      exact not_refused_variablesBeside t env settingsPath ⟨reason, hAdded⟩
    exact (fails_fault fault hOther).congr Iff.rfl (iff_of_true trivial (.inl (escapes_error hOther)))
  | ok added =>
    refine (fails_complete env added).congr Iff.rfl ?_
    simp only [not_escapes_ok, false_or, Except.ok.injEq, exists_eq_left']

/-! ## Loading -/

inductive Misfits (overlay : Value) : Prop
  | overlay (h : overlay.isMapping = false)
  | overrides {entries : Entries} {overrides : Value} (hEntries : overlay = .mapping entries)
    (hOverrides : valueOf? entries (.text overridesKey) = some overrides) (h : overrides.isMapping = false)

theorem escapes_splitOverlay {overlay : Value} (h : overlay.isMapping = false) : Escapes (splitOverlay overlay) := by
  cases overlay with
  | mapping entries => cases h
  | list items =>
    refine escapes_error fun reason => ?_
    split
    all_goals simp
  | scalar s =>
    refine escapes_error fun reason => ?_
    split
    all_goals simp

theorem fails_overridden (base : SharedEntries) (overrides? : Option Value) :
    Fails False (∃ overrides, overrides? = some overrides ∧ overrides.isMapping = false)
      (overridden base overrides?) := by
  cases overrides? with
  | none => exact (fails_ok _).congr Iff.rfl (iff_of_false id (by simp))
  | some overrides =>
    cases overrides with
    | mapping entries => exact (fails_ok _).congr Iff.rfl (iff_of_false id (by simp [Value.isMapping]))
    | scalar s => exact (fails_fault .overlayNotMapping (by simp)).congr Iff.rfl (iff_of_true trivial ⟨_, rfl, rfl⟩)
    | list items => exact (fails_fault .overlayNotMapping (by simp)).congr Iff.rfl (iff_of_true trivial ⟨_, rfl, rfl⟩)

theorem misfits_mapping_iff {entries : Entries} :
    Misfits (.mapping entries) ↔
      ∃ overrides, valueOf? entries (.text overridesKey) = some overrides ∧ overrides.isMapping = false := by
  constructor
  · intro h
    cases h with
    | overlay h => cases h
    | overrides hEntries hOverrides h =>
      cases hEntries
      exact ⟨_, hOverrides, h⟩
  · rintro ⟨overrides, hOverrides, h⟩
    exact .overrides rfl hOverrides h

theorem fails_withOverlay (base : SharedEntries) (overlay? : Option SharedValue) :
    Fails False (∃ overlay, overlay? = some overlay ∧ Misfits overlay.value) (withOverlay base overlay?) := by
  cases overlay? with
  | none => exact (fails_ok _).congr Iff.rfl (iff_of_false id (by simp))
  | some overlay =>
    have hOverlay : (∃ other, some overlay = some other ∧ Misfits other.value) ↔ Misfits overlay.value := by simp
    rw [hOverlay, withOverlay]
    cases hMapping : overlay.value.isMapping with
    | false =>
      exact ((escapes_splitOverlay hMapping).fails_bind _).congr Iff.rfl (iff_of_true trivial (.overlay hMapping))
    | true =>
      obtain ⟨entries, hEntries⟩ := overlay.value.isMapping_iff.mp hMapping
      rw [hEntries, misfits_mapping_iff]
      exact (fails_overridden base (valueOf? entries (.text overridesKey))).map fun lower =>
        mergeEntries lower (entries.filter fun entry => entry.1 != .text overridesKey)

/-- Why a fault escapes while settings are loaded: a file cannot be read, a variable beside the settings cannot be set,
the overlay or its overrides are no mapping, or a reference in the settings cannot be looked up. -/
inductive LoadEscapes (t : FileTree) (env : Environment) (settingsPath : Path) (environment : Option String) : Prop
  | variablesFile (h : Escapes (variablesBeside t env settingsPath))
  | unsettable {added : Environment} (hAdded : variablesBeside t env settingsPath = .ok added)
    (h : MeetsUnsettable env added)
  | settingsFile (h : Escapes (readBase t settingsPath))
  | overlayFile {number : Nat} {base : SharedEntries} (hBase : readBase t settingsPath = .ok (.mapping number base))
    (h : Escapes (readOverlay t settingsPath environment))
  | overlay {number : Nat} {base : SharedEntries} {overlay : SharedValue}
    (hBase : readBase t settingsPath = .ok (.mapping number base))
    (hOverlay : readOverlay t settingsPath environment = .ok (some overlay)) (h : Misfits overlay.value)
  | reference {number : Nat} {base : SharedEntries} {overlay? : Option SharedValue} {merged : Entries}
    (hBase : readBase t settingsPath = .ok (.mapping number base))
    (hOverlay : readOverlay t settingsPath environment = .ok overlay?) (hMerged : withOverlay base overlay? = .ok merged)
    (h : ¬WholeEntries merged)

section

variable (t : FileTree) (env : Environment) (settingsPath : Path) (environment : Option String)

theorem Loaded.substitute_snd (l : Loaded) :
    l.substitute.2 = if l.settings.hasHalvedReference then .error .halfInVariableName
      else .ok (l.settings.substitute l.environment) := by
  rw [Loaded.substitute]
  split <;> rfl

/-- The steps of loading one after the other. -/
theorem load_snd_eq : (load t env settingsPath environment).2 = (do
    let (held, result) := Loaded.readEnvironment { environment := env } t settingsPath
    result
    match ← readBase t settingsPath with
    | .mapping _ base =>
      let merged ← withOverlay base (← readOverlay t settingsPath environment)
      if anyHalvedEntry merged then throw .halfInVariableName
      else return .mapping (substituteEntries held.environment merged)
    | _ => throw (.settings (.fileNotMapping settingsPath.text))) := by
  unfold load
  dsimp only
  cases hHeld : Loaded.readEnvironment { environment := env } t settingsPath with
  | mk held result =>
    cases result with
    | error fault => rfl
    | ok _ =>
      cases readBase t settingsPath with
      | error fault => rfl
      | ok base =>
        cases base with
        | scalar s => rfl
        | list items => rfl
        | mapping number entries =>
          dsimp only
          rw [layOverlay_eq_bind]
          cases readOverlay t settingsPath environment with
          | error fault => rfl
          | ok overlay? =>
            cases hMerged : withOverlay entries overlay? with
            | error fault => simp only [bind, Except.bind, hMerged]
            | ok merged =>
              simp only [bind, Except.bind, hMerged, Loaded.substitute_snd]
              rfl

theorem escapes_load_iff :
    Escapes (load t env settingsPath environment).2 ↔ LoadEscapes t env settingsPath environment := by
  have hReference : ∀ (merged : Entries) (v : Value),
      Escapes (if anyHalvedEntry merged then .error .halfInVariableName else .ok v) ↔ ¬WholeEntries merged := by
    intro merged v
    rw [← anyHalvedEntry_eq_false_iff, Bool.not_eq_false]
    split
    · next hHalf => exact iff_of_true (escapes_error (by simp)) hHalf
    · next hWhole => exact iff_of_false (not_escapes_ok v) hWhole
  have hEnv := fails_readEnvironment t env settingsPath
  rw [load_snd_eq]
  cases hHeld : Loaded.readEnvironment { environment := env } t settingsPath with
  | mk held result =>
    rw [hHeld] at hEnv
    dsimp only
    -- A settings file that is no mapping hides all causes that come after it, so that these ask for a mapping.
    rw [hEnv.escapes_bind_iff fun _ _ => escapes_bind_iff, not_false_eq_true, true_and]
    constructor
    · rintro ((h | ⟨added, hAdded, h⟩) | h | ⟨base, hBase, h⟩)
      · exact .variablesFile h
      · exact .unsettable hAdded h
      · exact .settingsFile h
      · cases base with
        | scalar s => exact absurd (refused_error _) h.not_refused
        | list items => exact absurd (refused_error _) h.not_refused
        | mapping number base =>
          rcases escapes_bind_iff.mp h with h | ⟨overlay?, hOverlay, h⟩
          · exact .overlayFile hBase h
          rcases escapes_bind_iff.mp h with h | ⟨merged, hMerged, h⟩
          · obtain ⟨overlay, rfl, hMisfits⟩ := (fails_withOverlay base overlay?).escapes_iff.mp h
            exact .overlay hBase hOverlay hMisfits
          · exact .reference hBase hOverlay hMerged ((hReference merged _).mp h)
    · intro h
      cases h with
      | variablesFile h => exact .inl (.inl h)
      | unsettable hAdded h => exact .inl (.inr ⟨_, hAdded, h⟩)
      | settingsFile h => exact .inr (.inl h)
      | overlayFile hBase h => exact .inr (.inr ⟨_, hBase, escapes_bind_iff.mpr (.inl h)⟩)
      | @overlay _ base _ hBase hOverlay h =>
        have hMerged := (fails_withOverlay base _).escapes_iff.mpr ⟨_, rfl, h⟩
        exact .inr (.inr ⟨_, hBase, escapes_bind_iff.mpr (.inr ⟨_, hOverlay, escapes_bind_iff.mpr (.inl hMerged)⟩)⟩)
      | reference hBase hOverlay hMerged h =>
        refine .inr (.inr ⟨_, hBase, escapes_bind_iff.mpr (.inr ⟨_, hOverlay, ?_⟩)⟩)
        exact escapes_bind_iff.mpr (.inr ⟨_, hMerged, (hReference _ _).mpr h⟩)

end

end ScenarioRunner.Settings
