import ScenarioRunner.Feature.Store
import ScenarioRunner.Proofs.Feature.Nodes

/-!
# Histories of the store

What a store holds after a history of calls is what the parses and removals of its calls leave. Main statement: a case
is current until its file is parsed with a feature or forgotten, and never again after that.
-/

namespace ScenarioRunner.Feature

open ScenarioRunner.Files

set_option autoImplicit false

/-- A call of the store. The files may change between two calls, so each call comes with those that it finds. -/
inductive Call where
  | update (uri text : String)
  | updateFromDisk (t : FileTree) (p : Path)
  | parseFeatures (t : FileTree) (base : Path) (patterns : List String) (filter : Option String)
  | forget (uri : String)

inductive Step where
  | parse (uri text : String)
  | forget (uri : String)

def Step.uri : Step → String
  | .parse uri _ => uri
  | .forget uri => uri

def Step.run (s : Store) : Step → Store
  | .parse uri text => (s.update uri text).1
  | .forget uri => s.forget uri

/-- The store after the files that are read before the first one that is refused. -/
def Store.afterReading (t : FileTree) : Store → List Path → Store
  | s, [] => s
  | s, p :: rest =>
    match s.updateFromDisk t p with
    | .ok (s, _) => Store.afterReading t s rest
    | .error _ => s

def Call.run (s : Store) : Call → Store
  | .update uri text => (s.update uri text).1
  | .updateFromDisk t p =>
    match s.updateFromDisk t p with
    | .ok (s, _) => s
    | .error _ => s
  | .parseFeatures t base patterns _ =>
    match t.globAll base patterns with
    | .ok paths => s.afterReading t paths
    | .error _ => s
  | .forget uri => s.forget uri

def readSteps (t : FileTree) (paths : List Path) : List Step :=
  (paths.takeWhile fun p => !p.hasNull).map fun p => .parse (t.workingDir.resolve p).uri (textAt t p)

def Call.steps : Call → List Step
  | .update uri text => [.parse uri text]
  | .updateFromDisk t p => readSteps t [p]
  | .parseFeatures t base patterns _ =>
    match t.globAll base patterns with
    | .ok paths => readSteps t paths
    | .error _ => []
  | .forget uri => [.forget uri]

def afterCalls (calls : List Call) : Store :=
  calls.foldl Call.run {}

/-! ## Calls and their steps -/

theorem Store.afterReading_eq_foldl (t : FileTree) (s : Store) (paths : List Path) :
    s.afterReading t paths = (readSteps t paths).foldl Step.run s := by
  induction paths generalizing s with
  | nil => rfl
  | cons p rest ih =>
    rw [Store.afterReading, readSteps, List.takeWhile_cons, Store.updateFromDisk]
    cases p.hasNull with
    | true => rfl
    | false => exact ih _

/-- Where the files can be read, the store that is left is the one that reading them gives. -/
theorem Store.eq_afterReading_of_readFiles {t : FileTree} {filter : Option String} {s s' : Store} {paths : List Path}
    {files : List FeatureFile} (h : s.readFiles t filter paths = .ok (s', files)) : s' = s.afterReading t paths := by
  induction paths generalizing s files with
  | nil =>
    cases h
    rfl
  | cons p rest ih =>
    obtain ⟨read, hRead, h⟩ := exists_of_bind_eq_ok h
    obtain ⟨last, hRest, h⟩ := exists_of_bind_eq_ok h
    cases h
    rw [Store.afterReading, hRead]
    exact ih hRest

theorem Call.run_eq_foldl (s : Store) (call : Call) : call.run s = call.steps.foldl Step.run s := by
  cases call with
  | update uri text => rfl
  | updateFromDisk t p =>
    rw [Call.run, Call.steps, ← s.afterReading_eq_foldl t [p], Store.afterReading]
    rfl
  | parseFeatures t base patterns filter =>
    rw [Call.run, Call.steps]
    cases t.globAll base patterns with
    | error fault => rfl
    | ok paths => exact s.afterReading_eq_foldl t paths
  | forget uri => rfl

theorem foldl_run_eq_foldl_steps (s : Store) (calls : List Call) :
    calls.foldl Call.run s = (calls.flatMap Call.steps).foldl Step.run s := by
  induction calls generalizing s with
  | nil => rfl
  | cons call calls ih => rw [List.foldl_cons, ih, List.flatMap_cons, List.foldl_append, call.run_eq_foldl]

theorem afterCalls_eq_foldl (calls : List Call) :
    afterCalls calls = (calls.flatMap Call.steps).foldl Step.run {} :=
  foldl_run_eq_foldl_steps {} calls

/-! ## Single steps -/

theorem find?_putFile (files : List FeatureFile) (file : FeatureFile) (uri : String) :
    (putFile files file).find? (fun f => f.uri == uri) =
      if file.uri = uri then some file else files.find? fun f => f.uri == uri := by
  induction files with
  | nil =>
    by_cases hUri : file.uri = uri
    · simp [putFile, hUri]
    · simp [putFile, hUri]
  | cons first rest ih =>
    rw [putFile]
    by_cases hFirst : first.uri = file.uri
    · by_cases hUri : file.uri = uri
      · simp [hFirst, hUri]
      · simp [hFirst, hUri]
    · rw [if_neg hFirst, List.find?_cons, List.find?_cons, ih]
      by_cases hUri : file.uri = uri
      · have hOther : (first.uri == uri) = false := by
          rw [beq_eq_false_iff_ne]
          rintro rfl
          exact hFirst hUri.symm
        simp only [hOther, hUri, if_true]
      · simp only [if_neg hUri]

theorem mem_putFile {files : List FeatureFile} {file f : FeatureFile} (h : f ∈ putFile files file) :
    f = file ∨ f ∈ files := by
  induction files with
  | nil => exact Or.inl (List.mem_singleton.mp h)
  | cons first rest ih =>
    rw [putFile] at h
    split at h
    · rcases List.mem_cons.mp h with rfl | h
      · exact Or.inl rfl
      · exact Or.inr (List.mem_cons_of_mem _ h)
    · rcases List.mem_cons.mp h with rfl | h
      · exact Or.inr List.mem_cons_self
      · exact (ih h).imp_right (List.mem_cons_of_mem _)

/-- A parse keeps a known file whose text has no feature, and stores the file otherwise. -/
theorem Store.update_cases (s : Store) (uri text : String) :
    (∃ previous, build uri text s.nextGeneration = none ∧ s.find? uri = some previous ∧
      s.update uri text = ({ s with nextGeneration := s.nextGeneration + 1 }, previous)) ∨
    ((s.find? uri = none ∨ build uri text s.nextGeneration ≠ none) ∧
      s.update uri text =
        (⟨putFile s.files ⟨uri, build uri text s.nextGeneration, s.nextGeneration⟩, s.nextGeneration + 1⟩,
          ⟨uri, build uri text s.nextGeneration, s.nextGeneration⟩)) := by
  unfold Store.update
  cases hBuild : build uri text s.nextGeneration with
  | none =>
    cases hFile : s.find? uri with
    | none => exact Or.inr ⟨Or.inl rfl, rfl⟩
    | some previous => exact Or.inl ⟨previous, rfl, rfl, rfl⟩
  | some suite => exact Or.inr ⟨Or.inr (Option.some_ne_none suite), rfl⟩

theorem Store.find?_update (s : Store) (uri text : String) :
    (s.update uri text).1.find? uri = some (s.update uri text).2 := by
  rcases s.update_cases uri text with ⟨previous, -, hFile, hUpdate⟩ | ⟨-, hUpdate⟩
  · rw [hUpdate]
    exact hFile
  · rw [hUpdate]
    exact (find?_putFile _ _ _).trans (if_pos rfl)

theorem Store.find?_forget (s : Store) (uri other : String) :
    (s.forget uri).find? other = if uri = other then none else s.find? other := by
  rw [Store.find?, Store.forget, List.find?_filter]
  by_cases hUri : uri = other
  · rw [if_pos hUri, List.find?_eq_none]
    intro f _
    simp [hUri]
  · rw [if_neg hUri, Store.find?]
    congr 1
    funext f
    by_cases hFile : f.uri = other
    · simp [hFile, Ne.symm hUri]
    · simp [hFile]

theorem Store.find?_update_of_ne (s : Store) {uri other : String} (h : uri ≠ other) (text : String) :
    (s.update uri text).1.find? other = s.find? other := by
  rcases s.update_cases uri text with ⟨previous, -, -, hUpdate⟩ | ⟨-, hUpdate⟩
  · rw [hUpdate]
    rfl
  · rw [hUpdate]
    exact (find?_putFile _ _ _).trans (if_neg h)

theorem Step.find?_run_of_ne (s : Store) (step : Step) {uri : String} (h : step.uri ≠ uri) :
    (step.run s).find? uri = s.find? uri := by
  cases step with
  | parse other text => exact s.find?_update_of_ne h text
  | forget other => exact (s.find?_forget other uri).trans (if_neg h)

theorem Store.nextGeneration_update (s : Store) (uri text : String) :
    (s.update uri text).1.nextGeneration = s.nextGeneration + 1 := by
  rcases s.update_cases uri text with ⟨previous, -, -, hUpdate⟩ | ⟨-, hUpdate⟩
  · rw [hUpdate]
  · rw [hUpdate]

theorem Step.nextGeneration_le_run (s : Store) (step : Step) : s.nextGeneration ≤ (step.run s).nextGeneration := by
  cases step with
  | parse uri text =>
    have hNext := s.nextGeneration_update uri text
    rw [Step.run]
    omega
  | forget uri => exact Int.le_refl _

/-! ## Stale cases -/

def Step.replaces (uri : String) : Step → Bool
  | .parse other text => other == uri && (scan text).any fun e => e.featureName?.isSome
  | .forget other => other == uri

theorem any_feature_eq_false_iff (uri text : String) (generation : Int) :
    ((scan text).any fun e => e.featureName?.isSome) = false ↔ build uri text generation = none := by
  rw [build_eq_none_iff, List.any_eq_false]
  simp

theorem Store.isStale_of_find?_eq {s s' : Store} {c : Case} (h : s'.find? c.uri = s.find? c.uri) :
    s'.isStale c = s.isStale c := by
  rw [Store.isStale, Store.isStale, h]

theorem Step.replaces_eq_false_of_ne {step : Step} {uri : String} (h : step.uri ≠ uri) : step.replaces uri = false := by
  cases step with
  | parse other text =>
    have hOther : (other == uri) = false := beq_eq_false_iff_ne.mpr h
    rw [Step.replaces, hOther, Bool.false_and]
  | forget other => exact beq_eq_false_iff_ne.mpr h

theorem Store.isStale_forget (s : Store) (c : Case) : (s.forget c.uri).isStale c = true := by
  have hFind := (s.find?_forget c.uri c.uri).trans (if_pos rfl)
  rw [Store.isStale, hFind]

/-- The generation that a parse takes is later than that of the case, so storing its tree makes the case stale. -/
theorem Store.isStale_update (s : Store) {c : Case} (hTaken : c.generation < s.nextGeneration) (text : String) :
    (s.update c.uri text).1.isStale c = (s.isStale c || (scan text).any fun e => e.featureName?.isSome) := by
  rcases s.update_cases c.uri text with ⟨previous, hBuild, -, hUpdate⟩ | ⟨hNew, hUpdate⟩
  · rw [hUpdate, (any_feature_eq_false_iff _ _ _).mpr hBuild, Bool.or_false]
    rfl
  · have hStale : (s.update c.uri text).1.isStale c = true := by
      rw [Store.isStale, s.find?_update, hUpdate]
      exact bne_iff_ne.mpr (Int.ne_of_gt hTaken)
    rw [hStale]
    rcases hNew with hNone | hSome
    · rw [Store.isStale, hNone]
      rfl
    · have hFeature := (any_feature_eq_false_iff c.uri text s.nextGeneration).not.mpr hSome
      rw [Bool.not_eq_false] at hFeature
      rw [hFeature, Bool.or_true]

/-- What a step does to a case whose generation has been taken: nothing else than a replacement makes it stale, and
nothing makes it current again. -/
theorem Step.isStale_run (s : Store) (step : Step) {c : Case} (hTaken : c.generation < s.nextGeneration) :
    (step.run s).isStale c = (s.isStale c || step.replaces c.uri) := by
  by_cases hUri : step.uri = c.uri
  · cases step with
    | forget uri =>
      obtain rfl : uri = c.uri := hUri
      rw [Step.run, s.isStale_forget, Step.replaces, beq_self_eq_true, Bool.or_true]
    | parse uri text =>
      obtain rfl : uri = c.uri := hUri
      rw [Step.run, s.isStale_update hTaken, Step.replaces, beq_self_eq_true, Bool.true_and]
  · rw [Step.replaces_eq_false_of_ne hUri, Bool.or_false, Store.isStale_of_find?_eq (Step.find?_run_of_ne s step hUri)]

theorem isStale_foldl_run (steps : List Step) {s : Store} {c : Case} (hTaken : c.generation < s.nextGeneration) :
    (steps.foldl Step.run s).isStale c = (s.isStale c || steps.any (Step.replaces c.uri)) := by
  induction steps generalizing s with
  | nil => rw [List.foldl_nil, List.any_nil, Bool.or_false]
  | cons step steps ih =>
    have hNext := Step.nextGeneration_le_run s step
    rw [List.foldl_cons, ih (by omega), step.isStale_run s hTaken, List.any_cons, Bool.or_assoc]

theorem Store.isStale_update_of_gives (s : Store) {uri text : String} {suite : Suite} {c : Case}
    (h : build uri text s.nextGeneration = some suite) (hCase : suite.Gives c) :
    (s.update uri text).1.isStale c = false := by
  obtain ⟨hUri, hGeneration⟩ := hCase.belongs h
  rcases s.update_cases uri text with ⟨previous, hBuild, -, -⟩ | ⟨-, hUpdate⟩
  · rw [h] at hBuild
    cases hBuild
  · rw [Store.isStale, hUri, s.find?_update, hUpdate, hGeneration]
    exact bne_self_eq_false s.nextGeneration

/-! ## Stored files -/

/-- What holds of the files of a store that has taken its generations in order. -/
structure Store.Consistent (s : Store) : Prop where
  generation_lt : ∀ f ∈ s.files, f.generation < s.nextGeneration
  belongs : ∀ f ∈ s.files, ∀ suite ∈ f.root, ∀ n ∈ suite.walk, n.uri = f.uri ∧ n.generation = f.generation

theorem Store.Consistent.run {s : Store} (h : s.Consistent) (step : Step) : (step.run s).Consistent := by
  cases step with
  | forget uri =>
    constructor
    · intro f hf
      exact h.generation_lt f ((List.mem_filter.mp hf).1)
    · intro f hf
      exact h.belongs f ((List.mem_filter.mp hf).1)
  | parse uri text =>
    rw [Step.run]
    rcases s.update_cases uri text with ⟨previous, -, -, hUpdate⟩ | ⟨-, hUpdate⟩
    · rw [hUpdate]
      constructor
      · intro f hf
        exact Int.lt_add_one_of_le (Int.le_of_lt (h.generation_lt f hf))
      · exact h.belongs
    · rw [hUpdate]
      constructor
      · intro f hf
        rcases mem_putFile hf with rfl | hf
        · exact Int.lt_add_one_of_le (Int.le_refl _)
        · exact Int.lt_add_one_of_le (Int.le_of_lt (h.generation_lt f hf))
      · intro f hf
        rcases mem_putFile hf with rfl | hf
        · intro suite hSuite
          exact belongs_of_mem_build hSuite
        · exact h.belongs f hf

theorem Store.Consistent.foldl_run (steps : List Step) {s : Store} (h : s.Consistent) :
    (steps.foldl Step.run s).Consistent := by
  induction steps generalizing s with
  | nil => exact h
  | cons step steps ih => exact ih (h.run step)

theorem consistent_empty : Store.Consistent {} where
  generation_lt := by simp
  belongs := by simp

theorem consistent_afterCalls (calls : List Call) : (afterCalls calls).Consistent := by
  rw [afterCalls_eq_foldl]
  exact consistent_empty.foldl_run _

/-- A step never stores a generation below one that has been taken. -/
theorem Step.le_generation_run {s : Store} {uri : String} {bound : Int} (hTaken : bound < s.nextGeneration)
    (h : ∀ g, s.find? uri = some g → bound ≤ g.generation) (step : Step) :
    ∀ g, (step.run s).find? uri = some g → bound ≤ g.generation := by
  intro g hg
  by_cases hUri : step.uri = uri
  · cases step with
    | forget other =>
      have hNone := (s.find?_forget other uri).trans (if_pos hUri)
      rw [Step.run, hNone] at hg
      cases hg
    | parse other text =>
      obtain rfl : other = uri := hUri
      rw [Step.run, s.find?_update] at hg
      cases hg
      rcases s.update_cases other text with ⟨previous, -, hFile, hUpdate⟩ | ⟨-, hUpdate⟩
      · rw [hUpdate]
        exact h previous hFile
      · rw [hUpdate]
        exact Int.le_of_lt hTaken
  · rw [Step.find?_run_of_ne s step hUri] at hg
    exact h g hg

theorem le_generation_foldl_run (steps : List Step) {s : Store} {uri : String} {bound : Int}
    (hTaken : bound < s.nextGeneration) (h : ∀ g, s.find? uri = some g → bound ≤ g.generation) :
    ∀ g, (steps.foldl Step.run s).find? uri = some g → bound ≤ g.generation := by
  induction steps generalizing s with
  | nil => exact h
  | cons step steps ih =>
    have hNext := Step.nextGeneration_le_run s step
    exact ih (by omega) (Step.le_generation_run hTaken h step)

theorem Step.isSome_find?_run {s : Store} {uri : String} (h : (s.find? uri).isSome = true) {step : Step}
    (hStep : step ≠ .forget uri) : ((step.run s).find? uri).isSome = true := by
  by_cases hUri : step.uri = uri
  · cases step with
    | forget other =>
      obtain rfl : other = uri := hUri
      exact absurd rfl hStep
    | parse other text =>
      obtain rfl : other = uri := hUri
      rw [Step.run, s.find?_update]
      rfl
  · rw [Step.find?_run_of_ne s step hUri]
    exact h

theorem isSome_find?_foldl_run {steps : List Step} {s : Store} {uri : String} (h : (s.find? uri).isSome = true)
    (hSteps : .forget uri ∉ steps) : ((steps.foldl Step.run s).find? uri).isSome = true := by
  induction steps generalizing s with
  | nil => exact h
  | cons step steps ih =>
    rw [List.mem_cons, not_or] at hSteps
    exact ih (Step.isSome_find?_run h (Ne.symm hSteps.1)) hSteps.2

theorem find?_foldl_run_of_ne {steps : List Step} (s : Store) {uri : String} (h : ∀ step ∈ steps, step.uri ≠ uri) :
    (steps.foldl Step.run s).find? uri = s.find? uri := by
  induction steps generalizing s with
  | nil => rfl
  | cons step steps ih =>
    rw [List.foldl_cons, ih _ fun later hLater => h later (List.mem_cons_of_mem _ hLater)]
    exact Step.find?_run_of_ne s step (h step List.mem_cons_self)

theorem Store.update_of_not_feature (s : Store) {uri text : String} {f : FeatureFile} (hFile : s.find? uri = some f)
    (hText : ∀ e ∈ scan text, e.featureName? = none) :
    (s.update uri text).1.files = s.files ∧ (s.update uri text).2 = f := by
  rcases s.update_cases uri text with ⟨previous, -, hPrevious, hUpdate⟩ | ⟨hNew, -⟩
  · rw [hFile] at hPrevious
    cases hPrevious
    rw [hUpdate]
    exact ⟨rfl, rfl⟩
  · rcases hNew with hNone | hSome
    · rw [hFile] at hNone
      cases hNone
    · exact absurd ((build_eq_none_iff uri s.nextGeneration text).mpr hText) hSome

theorem Store.updateFromDisk_of_unreadable (s : Store) {t : FileTree} {p : Path} {f : FeatureFile} {fault : Fault}
    (hFile : s.find? (t.workingDir.resolve p).uri = some f) (hNull : p.hasNull = false)
    (hRead : t.readText p = .error fault) :
    ∃ s', s.updateFromDisk t p = .ok (s', f) ∧ s'.files = s.files := by
  have hText : textAt t p = "" := by
    rw [textAt, hRead]
  have hEmpty : ∀ e ∈ scan "", e.featureName? = none := by decide
  obtain ⟨hFiles, hReturned⟩ := s.update_of_not_feature hFile hEmpty
  refine ⟨(s.update (t.workingDir.resolve p).uri "").1, ?_, hFiles⟩
  rw [Store.updateFromDisk, hNull, hText, ← hReturned]
  rfl

/-! ## Whole histories -/

theorem any_replaces_eq_false_iff (uri : String) (steps : List Step) :
    steps.any (Step.replaces uri) = false ↔
      (∀ text, .parse uri text ∈ steps → ∀ e ∈ scan text, e.featureName? = none) ∧ .forget uri ∉ steps := by
  rw [List.any_eq_false]
  constructor
  · intro h
    refine ⟨?_, fun hForget => h _ hForget (beq_self_eq_true uri)⟩
    intro text hParse
    have hText := h _ hParse
    rw [Step.replaces, beq_self_eq_true, Bool.true_and, Bool.not_eq_true, any_feature_eq_false_iff uri text 0] at hText
    exact (build_eq_none_iff uri 0 text).mp hText
  · rintro ⟨hParse, hForget⟩ step hStep hReplaces
    cases step with
    | forget other =>
      obtain rfl : other = uri := beq_iff_eq.mp hReplaces
      exact hForget hStep
    | parse other text =>
      rw [Step.replaces, Bool.and_eq_true, beq_iff_eq] at hReplaces
      obtain ⟨rfl, hFeature⟩ := hReplaces
      have hNone := (any_feature_eq_false_iff other text 0).mpr ((build_eq_none_iff other 0 text).mpr (hParse text hStep))
      rw [hNone] at hFeature
      cases hFeature

theorem isStale_of_gives {before : List Step} {uri text : String} {suite : Suite} {c : Case}
    (h : build uri text (before.foldl Step.run {}).nextGeneration = some suite) (hCase : suite.Gives c)
    (after : List Step) :
    ((before ++ .parse uri text :: after).foldl Step.run {}).isStale c = after.any (Step.replaces uri) := by
  obtain ⟨hUri, hGeneration⟩ := hCase.belongs h
  have hCurrent := Store.isStale_update_of_gives _ h hCase
  have hNext := Store.nextGeneration_update (before.foldl Step.run {}) uri text
  rw [List.foldl_append, List.foldl_cons, isStale_foldl_run after (by rw [Step.run, hNext, hGeneration]; omega), Step.run,
    hCurrent, Bool.false_or, hUri]

/-- Over every history: a case is current until its file is parsed with a feature or forgotten, and stale for ever after;
a file without a feature and one that cannot be read keep what is stored; other files are not touched; stored trees
belong to their entries; and generations do not decrease. -/
theorem staleness_of_history (calls : List Call) :
    (∀ before uri text after, calls.flatMap Call.steps = before ++ .parse uri text :: after →
      ∀ suite, build uri text (before.foldl Step.run {}).nextGeneration = some suite → ∀ c, suite.Gives c →
        ((afterCalls calls).isStale c = false ↔
          (∀ text', .parse uri text' ∈ after → ∀ e ∈ scan text', e.featureName? = none) ∧ .forget uri ∉ after) ∧
        ((afterCalls calls).isStale c = true → ∀ more, (afterCalls (calls ++ more)).isStale c = true)) ∧
    (∀ uri f, (afterCalls calls).find? uri = some f →
      (∀ text, (∀ e ∈ scan text, e.featureName? = none) →
        ((afterCalls calls).update uri text).1.files = (afterCalls calls).files ∧
          ((afterCalls calls).update uri text).2 = f) ∧
      (∀ t p fault, (t.workingDir.resolve p).uri = uri → p.hasNull = false → t.readText p = .error fault →
        ∃ s, (afterCalls calls).updateFromDisk t p = .ok (s, f) ∧ s.files = (afterCalls calls).files) ∧
      ∀ more, (∀ g, (afterCalls (calls ++ more)).find? uri = some g → f.generation ≤ g.generation) ∧
        (.forget uri ∉ more.flatMap Call.steps → ((afterCalls (calls ++ more)).find? uri).isSome = true)) ∧
    (∀ call uri, (∀ step ∈ Call.steps call, step.uri ≠ uri) →
      (call.run (afterCalls calls)).find? uri = (afterCalls calls).find? uri) ∧
    ∀ f ∈ (afterCalls calls).files, ∀ suite ∈ f.root, ∀ n ∈ suite.walk, n.uri = f.uri ∧ n.generation = f.generation := by
  have hMore : ∀ more, afterCalls (calls ++ more) = (more.flatMap Call.steps).foldl Step.run (afterCalls calls) := by
    intro more
    rw [afterCalls, List.foldl_append, foldl_run_eq_foldl_steps _ more, afterCalls]
  refine ⟨?_, ?_, ?_, (consistent_afterCalls calls).belongs⟩
  · intro before uri text after hHistory suite hSuite c hCase
    have hStale := isStale_of_gives hSuite hCase after
    rw [← hHistory, ← afterCalls_eq_foldl] at hStale
    refine ⟨by rw [hStale, any_replaces_eq_false_iff], ?_⟩
    intro hNow more
    have hLater := isStale_of_gives hSuite hCase (after ++ more.flatMap Call.steps)
    rw [← List.cons_append, ← List.append_assoc, ← hHistory, ← List.flatMap_append, ← afterCalls_eq_foldl,
      List.any_append, ← hStale, hNow, Bool.true_or] at hLater
    exact hLater
  · intro uri f hFile
    refine ⟨fun text hText => Store.update_of_not_feature _ hFile hText, ?_, ?_⟩
    · rintro t p fault rfl hNull hRead
      exact Store.updateFromDisk_of_unreadable _ hFile hNull hRead
    · intro more
      rw [hMore more]
      refine ⟨?_, fun hForget => isSome_find?_foldl_run (by rw [hFile]; rfl) hForget⟩
      apply le_generation_foldl_run
      · exact (consistent_afterCalls calls).generation_lt f (List.mem_of_find?_eq_some hFile)
      · intro g hg
        rw [hFile] at hg
        cases hg
        exact Int.le_refl _
  · intro call uri hOther
    rw [call.run_eq_foldl]
    exact find?_foldl_run_of_ne _ hOther

/-- An empty text keeps the case current; once its file is forgotten, reading the same text again does not help. -/
theorem staleness_of_forgotten_file :
    ∃ suite c, build "f" "Feature: F\nScenario: s" 1 = some suite ∧ suite.Gives c ∧
      (afterCalls [.update "f" "Feature: F\nScenario: s", .update "f" ""]).isStale c = false ∧
      (afterCalls [.update "f" "Feature: F\nScenario: s", .update "f" "", .forget "f",
        .update "f" "Feature: F\nScenario: s"]).isStale c = true := by
  have hSuite : build "f" "Feature: F\nScenario: s" 1 = some
      ⟨⟨"f/F", "F", "f", Span.ofLine 0 10, 1, false⟩,
        [.case ⟨"f/s", "s", "f", Span.ofLine 1 11, ⟨1, 11⟩, 1, false, "s"⟩]⟩ := by
    rfl
  have hCase : Suite.Gives ⟨⟨"f/F", "F", "f", Span.ofLine 0 10, 1, false⟩,
      [.case ⟨"f/s", "s", "f", Span.ofLine 1 11, ⟨1, 11⟩, 1, false, "s"⟩]⟩
      ⟨"f/s", "s", "f", Span.ofLine 1 11, ⟨1, 11⟩, 1, false, "s"⟩ :=
    .member List.mem_cons_self
  have hEmpty : ∀ e ∈ scan "", e.featureName? = none := by decide
  obtain ⟨hKept, -⟩ := (staleness_of_history [.update "f" "Feature: F\nScenario: s", .update "f" ""]).1
    [] "f" "Feature: F\nScenario: s" [.parse "f" ""] rfl _ hSuite _ hCase
  obtain ⟨hForgotten, -⟩ := (staleness_of_history [.update "f" "Feature: F\nScenario: s", .update "f" "", .forget "f",
    .update "f" "Feature: F\nScenario: s"]).1
    [] "f" "Feature: F\nScenario: s" [.parse "f" "", .forget "f", .parse "f" "Feature: F\nScenario: s"] rfl _ hSuite _
    hCase
  refine ⟨_, _, hSuite, hCase, hKept.mpr ⟨?_, by simp⟩, ?_⟩
  · intro text hText
    obtain ⟨-, rfl⟩ : "f" = "f" ∧ text = "" := by simpa using hText
    exact hEmpty
  · rw [← Bool.not_eq_false, hForgotten]
    rintro ⟨-, hForget⟩
    simp at hForget

end ScenarioRunner.Feature
