import ScenarioRunner.Proofs.Feature.Names
import ScenarioRunner.Proofs.Run.NamePattern
import ScenarioRunner.Run.Session

/-!
# What the run of a case selects

A run starts one command, and the scenarios to run are selected by its pattern alone. The pattern is made from a name,
which does not tell whether a text in brackets is a placeholder of an outline. Main statement: the pattern of a case
selects the name of the case, and no other if and only if the name has nothing that looks like a placeholder.
-/

namespace ScenarioRunner.Run

open ScenarioRunner.Feature
open ScenarioRunner.Settings

set_option autoImplicit false

/-! ## Names with and without placeholders -/

theorem Cut.eq_nil_iff {s first : List Char} {more : List (List Char)} (h : Cut s first more) :
    more = [] ↔ ¬HasPlaceholder s := by
  cases h with
  | plain hNone => simp [hNone]
  | @placeholder first inside rest next more _ _ _ =>
    have hHas : HasPlaceholder (first ++ '<' :: (inside ++ '>' :: rest)) := ⟨first, inside, rest, rfl⟩
    simp [hHas]

theorem Cut.sublist {s first : List Char} {more : List (List Char)} (h : Cut s first more) :
    (first ++ more.flatten).Sublist s := by
  induction h with
  | plain _ => simp
  | @placeholder first inside rest next more _ _ _ ih =>
    apply List.Sublist.append (List.Sublist.refl first)
    apply List.Sublist.cons
    rw [List.flatten_cons]
    exact List.Sublist.trans (List.Sublist.cons _ ih) (List.sublist_append_right _ _)

theorem Cut.length_lt {s first : List Char} {more : List (List Char)} (h : Cut s first more) (hMore : more ≠ []) :
    (first ++ more.flatten).length < s.length := by
  cases h with
  | plain _ => exact absurd rfl hMore
  | placeholder _ _ hRest =>
    have hLength := hRest.sublist.length_le
    simp only [List.length_append, List.length_cons, List.flatten_cons] at hLength ⊢
    omega

theorem woven_empty (first : List Char) (more : List (List Char)) :
    woven first more (List.replicate more.length []) = first ++ more.flatten := by
  have hZip : List.zipWith (· ++ ·) (List.replicate more.length []) more = more := by
    induction more with
    | nil => rfl
    | cons literal more ih => rw [List.length_cons, List.replicate_succ, List.zipWith_cons_cons, ih, List.nil_append]
  rw [woven, hZip]

theorem accepts_self {name : String} (h : '\n' ∉ name.toList) : Accepts (namePattern name) name := by
  obtain ⟨first, more, hCut⟩ := exists_cut name.toList
  exact (accepts_iff_of_cut hCut h).mpr (exists_fillings_of_cut hCut)

/-- Of all texts of one line, the pattern accepts no other than the name. -/
def SelectsOnly (pattern name : String) : Prop :=
  ∀ other : String, '\n' ∉ other.toList → Accepts pattern other → other = name

theorem selectsOnly_namePattern_iff {name : String} (h : '\n' ∉ name.toList) :
    SelectsOnly (namePattern name) name ↔ ¬HasPlaceholder name.toList := by
  obtain ⟨first, more, hCut⟩ := exists_cut name.toList
  rw [← hCut.eq_nil_iff]
  constructor
  · intro hOnly
    by_contra hMore
    -- The shortest accepted text has nothing in the place of a placeholder.
    have hFeed : '\n' ∉ (String.ofList (first ++ more.flatten)).toList := by
      rw [String.toList_ofList]
      exact fun hMem => h (hCut.sublist.subset hMem)
    have hAccepts : Accepts (namePattern name) (String.ofList (first ++ more.flatten)) := by
      rw [accepts_iff_of_cut hCut hFeed]
      exact ⟨List.replicate more.length [], List.length_replicate, by rw [String.toList_ofList, woven_empty]⟩
    have hLength := hCut.length_lt hMore
    rw [← hOnly _ hFeed hAccepts, String.toList_ofList] at hLength
    exact Nat.lt_irrefl _ hLength
  · rintro rfl other hOther hAccepts
    obtain ⟨fillings, hLength, hWoven⟩ := (accepts_iff_of_cut hCut hOther).mp hAccepts
    obtain ⟨nameFillings, hNameLength, hName⟩ := exists_fillings_of_cut hCut
    rw [List.length_nil, List.length_eq_zero_iff] at hLength hNameLength
    subst hLength hNameLength
    exact String.toList_injective (hWoven.trans hName.symm)

/-! ## Launches -/

theorem Supervisor.launches_kill (s : Supervisor) : s.kill.launches = s.launches := by
  rw [Supervisor.kill]
  split
  · rfl
  · rfl

theorem Supervisor.launches_release (s : Supervisor) (i : Nat) : (s.release i).launches = s.launches := by
  rw [Supervisor.release]
  split
  · rfl
  · rfl

theorem launches_run (system : Launch → LaunchResult) (s : Supervisor) (name : String) :
    ((supervisorRunner system).run s name).1.launches =
      s.launches ++ [launchFor s.settings s.environment name] := by
  simp only [supervisorRunner, Supervisor.run]
  split
  · simp only [Supervisor.launches_kill]
  · simp only [Supervisor.launches_kill]
  · next child _ =>
    simp only [handLines_ignoreLines, Supervisor.launches_release]
    split
    · simp only [Supervisor.await, Supervisor.launches_kill, Supervisor.adopt]
    · simp only [Supervisor.await, Supervisor.launches_kill, Supervisor.adopt]

/-- The run of a name makes one launch, which has the pattern behind the name option. -/
def RunsWith (system : Launch → LaunchResult) (s : Supervisor) (name pattern : String) : Prop :=
  ∃ launch : Launch, ((supervisorRunner system).run s name).1.launches = s.launches ++ [launch] ∧
    launch.argv = s.settings.nodePath :: s.settings.cucumberPath :: s.settings.features ++
      nameOption :: pattern :: s.settings.cliOptions

theorem runsWith_namePattern (system : Launch → LaunchResult) (s : Supervisor) (name : String) :
    RunsWith system s name (namePattern name) :=
  ⟨_, launches_run system s name, rfl⟩

/-! ## Cases of a tree -/

theorem notMem_name_of_mem_cases {uri text : String} {generation : Int} {suite : Suite}
    (h : build uri text generation = some suite) {c : Case} (hCase : c ∈ suite.cases) : '\n' ∉ c.name.toList := by
  obtain ⟨n, hn, hc⟩ := List.mem_filterMap.mp hCase
  cases n with
  | case c' =>
    cases hc
    exact fun hFeed => (inLine_of_mem_name h hn _ hFeed).2 rfl
  | suite header children => cases hc

/-- The run of a case selects its name. It selects no other name, of whatever file, if and only if the name has nothing
that looks like a placeholder. -/
theorem selectsOnly_iff_of_build (system : Launch → LaunchResult) (s : Supervisor) {uri text : String}
    {generation : Int} {suite : Suite} (hBuild : build uri text generation = some suite) {c : Case}
    (hCase : c ∈ suite.cases) :
    ∃ pattern, RunsWith system s c.name pattern ∧ Accepts pattern c.name ∧
      (SelectsOnly pattern c.name ↔ ¬HasPlaceholder c.name.toList) ∧
      (¬HasPlaceholder c.name.toList → ∀ (uri' text' : String) (generation' : Int) (suite' : Suite),
        build uri' text' generation' = some suite' → ∀ other ∈ suite'.cases, Accepts pattern other.name →
          other.name = c.name) := by
  have hFeed := notMem_name_of_mem_cases hBuild hCase
  refine ⟨namePattern c.name, runsWith_namePattern system s c.name, accepts_self hFeed,
    selectsOnly_namePattern_iff hFeed, ?_⟩
  intro hNone uri' text' generation' suite' hBuild' other hOther hAccepts
  exact (selectsOnly_namePattern_iff hFeed).mpr hNone other.name (notMem_name_of_mem_cases hBuild' hOther) hAccepts

theorem selectsOnly_of_start :
    ∃ suite, build "f" "Feature: F\nScenario: Pay\nScenario: Pay later" 0 = some suite ∧
      suite.cases.map Case.name = ["Pay", "Pay later"] ∧
      ∃ pattern, RunsWith (fun _ => .failed "") { settings := { cwd := {} }, environment := [] } "Pay" pattern ∧
        SelectsOnly pattern "Pay" := by
  have hSuite : build "f" "Feature: F\nScenario: Pay\nScenario: Pay later" 0 = some
      ⟨⟨"f/F", "F", "f", Span.ofLine 0 10, 0, false⟩,
        [.case ⟨"f/Pay", "Pay", "f", Span.ofLine 1 13, ⟨1, 13⟩, 0, false, "Pay"⟩,
          .case ⟨"f/Pay later", "Pay later", "f", Span.ofLine 2 19, ⟨2, 19⟩, 0, false, "Pay later"⟩]⟩ := by
    rfl
  obtain ⟨pattern, hRuns, -, hOnly, -⟩ := selectsOnly_iff_of_build (fun _ => .failed "")
    { settings := { cwd := {} }, environment := [] } hSuite List.mem_cons_self
  exact ⟨_, hSuite, rfl, pattern, hRuns, hOnly.mpr (by decide)⟩

/-- The run of the scenario `Pay <cash>` selects the scenario `Pay by card` as well. -/
theorem not_selectsOnly_of_brackets :
    ¬ ∀ (system : Launch → LaunchResult) (s : Supervisor) (uri text : String) (generation : Int) (suite : Suite),
      build uri text generation = some suite → ∀ c ∈ suite.cases, c.isOutline = false →
        ∀ pattern, RunsWith system s c.name pattern → SelectsOnly pattern c.name := by
  intro h
  have hSuite : build "f" "Feature: F\nScenario: Pay <cash>\nScenario: Pay by card" 0 = some
      ⟨⟨"f/F", "F", "f", Span.ofLine 0 10, 0, false⟩,
        [.case ⟨"f/Pay <cash>", "Pay <cash>", "f", Span.ofLine 1 20, ⟨1, 20⟩, 0, false, "Pay <cash>"⟩,
          .case ⟨"f/Pay by card", "Pay by card", "f", Span.ofLine 2 21, ⟨2, 21⟩, 0, false, "Pay by card"⟩]⟩ := by
    rfl
  have hOnly := h (fun _ => .failed "") { settings := { cwd := {} }, environment := [] } _ _ _ _ hSuite
    _ List.mem_cons_self rfl _ (runsWith_namePattern _ _ _)
  have hCut : Cut "Pay <cash>".toList "Pay ".toList [[]] := by
    change Cut ("Pay ".toList ++ '<' :: ("cash".toList ++ '>' :: [])) "Pay ".toList [[]]
    exact .placeholder (by decide) (by decide) (.plain (by decide))
  have hAccepts : Accepts (namePattern "Pay <cash>") "Pay by card" :=
    (accepts_iff_of_cut hCut (by decide)).mpr ⟨["by card".toList], rfl, rfl⟩
  exact absurd (hOnly "Pay by card" (by decide) hAccepts) (by decide)

end ScenarioRunner.Run
