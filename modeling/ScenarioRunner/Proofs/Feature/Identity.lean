import Mathlib.Data.List.Induction
import Mathlib.Data.List.Nodup
import ScenarioRunner.Proofs.Feature.Growth
import ScenarioRunner.Proofs.Text.Numeral

/-!
# The ids of a tree

A node is known by its file and its name, and a later node of the same name by a number behind its name. The number is
text like the name itself, so a name may look like another name with a number. Main statement: the ids of a tree are
pairwise distinct if and only if no node has a name that a repeated name is numbered to.
-/

namespace ScenarioRunner.Feature

open ScenarioRunner.Text

set_option autoImplicit false

def numbered (name : String) (number : Nat) : String :=
  name ++ " [" ++ toString number ++ "]"

/-- The id of a node before which a number of nodes have its name. -/
def idOf (uri name : String) : Nat → String
  | 0 => uri ++ "/" ++ name
  | earlier + 1 => uri ++ "/" ++ numbered name (earlier + 2)

def occurrencesFrom (seen : List String) : List String → List (String × Nat)
  | [] => []
  | name :: rest => (name, seen.count name) :: occurrencesFrom (seen ++ [name]) rest

def occurrences (names : List String) : List (String × Nat) :=
  occurrencesFrom [] names

def idsOf (uri : String) (names : List String) : List String :=
  (occurrences names).map fun o => idOf uri o.1 o.2

def labelsOf (uri : String) (names : List String) : List (String × String) :=
  (occurrences names).map fun o => (o.1, idOf uri o.1 o.2)

/-! ## Occurrences -/

theorem occurrencesFrom_concat (seen names : List String) (name : String) :
    occurrencesFrom seen (names ++ [name]) = occurrencesFrom seen names ++ [(name, (seen ++ names).count name)] := by
  induction names generalizing seen with
  | nil => simp [occurrencesFrom]
  | cons first names ih => simp [occurrencesFrom, ih]

theorem occurrences_concat (names : List String) (name : String) :
    occurrences (names ++ [name]) = occurrences names ++ [(name, names.count name)] :=
  occurrencesFrom_concat [] names name

theorem map_fst_occurrences (names : List String) : (occurrences names).map Prod.fst = names := by
  induction names using List.reverseRecOn with
  | nil => rfl
  | append_singleton names last ih => rw [occurrences_concat, List.map_append, ih, List.map_singleton]

theorem mem_occurrences_iff (names : List String) (name : String) (earlier : Nat) :
    (name, earlier) ∈ occurrences names ↔ earlier < names.count name := by
  induction names using List.reverseRecOn with
  | nil => simp [occurrences, occurrencesFrom]
  | append_singleton names last ih =>
    rw [occurrences_concat, List.mem_append, ih, List.mem_singleton, List.count_append, Prod.mk.injEq]
    by_cases hName : name = last
    · subst hName
      simp
      omega
    · simp [hName, Ne.symm hName]

theorem nodup_occurrences (names : List String) : (occurrences names).Nodup := by
  induction names using List.reverseRecOn with
  | nil => exact List.nodup_nil
  | append_singleton names last ih =>
    rw [occurrences_concat, ← List.concat_eq_append, List.nodup_concat]
    refine ⟨?_, ih⟩
    rw [mem_occurrences_iff]
    exact Nat.lt_irrefl _

/-! ## Numbered names -/

theorem toList_numbered (name : String) (number : Nat) :
    (numbered name number).toList = (name.toList ++ [' ']) ++ '[' :: (Nat.toDigits 10 number ++ [']']) := by
  simp [numbered, Nat.toString_eq_repr, Nat.repr]

theorem notMem_toDigits (number : Nat) : '[' ∉ Nat.toDigits 10 number := by
  intro hMem
  exact absurd (isDigit_of_mem_toDigits hMem) (by decide)

/-- The last opening bracket of a numbered name stands before its number. -/
theorem numbered_inj {name other : String} {number next : Nat} (h : numbered name number = numbered other next) :
    name = other ∧ number = next := by
  have hText := congrArg String.toList h
  rw [toList_numbered, toList_numbered] at hText
  obtain ⟨hNames, hNumbers⟩ := eq_and_eq_of_last_eq (by simp [notMem_toDigits]) (by simp [notMem_toDigits]) hText
  have hValue := congrArg numeralValue (List.append_cancel_right hNumbers)
  rw [numeralValue_toDigits, numeralValue_toDigits] at hValue
  exact ⟨String.toList_injective (List.append_cancel_right hNames), hValue⟩

theorem eq_of_inFile_eq {uri name other : String} (h : uri ++ "/" ++ name = uri ++ "/" ++ other) : name = other := by
  have hText := congrArg String.toList h
  simp only [String.toList_append] at hText
  exact String.toList_injective (List.append_cancel_left hText)

/-- Ids coincide only where a name is the numbered form of a repeated one. -/
theorem nodup_idsOf_iff (uri : String) (names : List String) :
    (idsOf uri names).Nodup ↔
      ∀ name number, 2 ≤ number → number ≤ names.count name → numbered name number ∉ names := by
  rw [idsOf, List.nodup_map_iff_inj_on (nodup_occurrences names)]
  constructor
  · intro hInj name number hTwo hCount hMem
    obtain ⟨earlier, rfl⟩ := Nat.exists_eq_add_of_le' hTwo
    have hPlain : (numbered name (earlier + 2), 0) ∈ occurrences names :=
      (mem_occurrences_iff _ _ _).mpr (List.count_pos_iff.mpr hMem)
    have hRepeat : (name, earlier + 1) ∈ occurrences names := (mem_occurrences_iff _ _ _).mpr hCount
    have hSame := congrArg Prod.snd (hInj _ hPlain _ hRepeat rfl)
    cases hSame
  · rintro hNone ⟨name, earlier⟩ hName ⟨other, before⟩ hOther hIds
    rw [mem_occurrences_iff] at hName hOther
    cases earlier with
    | zero =>
      cases before with
      | zero =>
        obtain rfl : name = other := eq_of_inFile_eq hIds
        rfl
      | succ before =>
        obtain rfl : name = numbered other (before + 2) := eq_of_inFile_eq hIds
        exact absurd (List.count_pos_iff.mp hName) (hNone other (before + 2) (by omega) hOther)
    | succ earlier =>
      cases before with
      | zero =>
        obtain rfl : numbered name (earlier + 2) = other := eq_of_inFile_eq hIds
        exact absurd (List.count_pos_iff.mp hOther) (hNone name (earlier + 2) (by omega) hName)
      | succ before =>
        obtain ⟨rfl, hNumber⟩ := numbered_inj (eq_of_inFile_eq hIds)
        rw [Nat.add_right_cancel hNumber]

/-! ## The nodes of a draft -/

def Node.label (n : Node) : String × String :=
  (n.name, n.id)

def Draft.labels (d : Draft) : List (String × String) :=
  match d.root with
  | none => []
  | some header => (header.name, header.id) :: (walkAll d.allChildren).map Node.label

theorem Draft.nextId_eq (d : Draft) (uri name : String) : d.nextId uri name = idOf uri name (d.names.count name) := by
  rw [Draft.nextId]
  cases d.names.count name with
  | zero => rfl
  | succ earlier => simp only [idOf, numbered, String.append_assoc]

theorem Draft.labels_eq (d : Draft) : d.labels = d.nodes.map Node.label := by
  have hAlone : Node.label ∘ Node.alone = Node.label := by
    funext n
    cases n <;> rfl
  rw [Draft.labels, Draft.nodes]
  cases d.root with
  | none => rfl
  | some header =>
    rw [List.map_cons, List.map_map, hAlone]
    rfl

structure Draft.AppendsNode (uri name : String) (d d' : Draft) : Prop where
  names : d'.names = d.names ++ [name]
  labels : d'.labels = d.labels ++ [(name, d.nextId uri name)]

variable (uri : String) (generation : Int)

/-- What the steps of a draft keep: its nodes have the names that it counts, with the ids that follow from them. -/
structure Draft.IsNumbered (d : Draft) : Prop where
  labels : d.labels = labelsOf uri d.names
  blank : d.root = none → d.IsBlank

variable {uri}

theorem Draft.IsNumbered.labels_of_appendsNode {d d' : Draft} (h : d.IsNumbered uri) {name : String}
    (hAppends : d.AppendsNode uri name d') : d'.labels = labelsOf uri d'.names := by
  rw [hAppends.labels, hAppends.names, labelsOf, occurrences_concat, List.map_append, h.labels, d.nextId_eq]
  rfl

theorem Draft.IsNumbered.labels_of_grows {d d' : Draft} (h : d.IsNumbered uri) {span : Span}
    (hGrows : d.Grows uri span d') : d'.labels = labelsOf uri d'.names := by
  cases hGrows with
  | same hNodes hNames => rw [d'.labels_eq, hNodes, hNames, ← d.labels_eq, h.labels]
  | @more n hNodes hNames hId =>
    have hAppends : d.AppendsNode uri n.name d' := by
      refine ⟨hNames, ?_⟩
      rw [d'.labels_eq, hNodes, List.map_append, ← d.labels_eq, ← hId]
      rfl
    exact h.labels_of_appendsNode hAppends

theorem Draft.IsNumbered.add {d : Draft} (h : d.IsNumbered uri) (e : Event) :
    (d.add uri generation e).IsNumbered uri :=
  ⟨h.labels_of_grows (d.grows_add uri generation h.blank e), d.isBlank_add uri generation h.blank e⟩

theorem isNumbered_ofEvents (events : List Event) : (Draft.ofEvents uri generation events).IsNumbered uri := by
  have hStart : Draft.IsNumbered uri {} := ⟨rfl, fun _ => ⟨rfl, rfl, rfl⟩⟩
  rw [Draft.ofEvents]
  generalize ({} : Draft) = d at hStart ⊢
  induction events generalizing d with
  | nil => exact hStart
  | cons e events ih => exact ih _ (hStart.add generation e)

theorem map_label_walk_of_build {text : String} {suite : Suite} (h : build uri text generation = some suite) :
    suite.walk.map Node.label = labelsOf uri (Draft.ofEvents uri generation (scan text)).names := by
  obtain ⟨root, hRoot, rfl⟩ := Option.map_eq_some_iff.mp h
  rw [← (isNumbered_ofEvents generation (scan text)).labels, Draft.labels, hRoot]
  rfl

theorem labels_of_build {text : String} {suite : Suite} (h : build uri text generation = some suite) :
    ∃ names, suite.walk.map Node.label = labelsOf uri names :=
  ⟨_, map_label_walk_of_build generation h⟩

/-- The ids of a tree follow from its names in the order of a walk. They are pairwise distinct if and only if no node
has a name that a repeated name is numbered to. -/
theorem nodup_ids_build_iff (text : String) (suite : Suite) (h : build uri text generation = some suite) :
    suite.walk.map Node.id = idsOf uri (suite.walk.map Node.name) ∧
      ((suite.walk.map Node.id).Nodup ↔
        ∀ name number, 2 ≤ number → number ≤ (suite.walk.map Node.name).count name →
          numbered name number ∉ suite.walk.map Node.name) := by
  obtain ⟨names, hLabels⟩ := labels_of_build generation h
  have hNames : suite.walk.map Node.name = names := by
    have hFirst := congrArg (List.map Prod.fst) hLabels
    rw [labelsOf, List.map_map, List.map_map] at hFirst
    exact hFirst.trans (map_fst_occurrences names)
  have hIds : suite.walk.map Node.id = idsOf uri names := by
    have hSecond := congrArg (List.map Prod.snd) hLabels
    rw [labelsOf, List.map_map, List.map_map] at hSecond
    exact hSecond
  rw [hNames, hIds]
  exact ⟨rfl, nodup_idsOf_iff uri names⟩

/-- A name that ends in a number does no harm as long as nothing is repeated so often. -/
theorem nodup_ids_build_of_other_number :
    ∃ suite, build "f" "Feature: F\nScenario: a\nScenario: a\nScenario: a [3]" 0 = some suite ∧
      suite.walk.map Node.id = ["f/F", "f/a", "f/a [2]", "f/a [3]"] ∧ (suite.walk.map Node.id).Nodup := by
  have hSuite : build "f" "Feature: F\nScenario: a\nScenario: a\nScenario: a [3]" 0 = some
      ⟨⟨"f/F", "F", "f", Span.ofLine 0 10, 0, false⟩,
        [.case ⟨"f/a", "a", "f", Span.ofLine 1 11, ⟨1, 11⟩, 0, false, "a"⟩,
          .case ⟨"f/a [2]", "a", "f", Span.ofLine 2 11, ⟨2, 11⟩, 0, false, "a"⟩,
          .case ⟨"f/a [3]", "a [3]", "f", Span.ofLine 3 15, ⟨3, 15⟩, 0, false, "a [3]"⟩]⟩ := by
    rfl
  obtain ⟨-, hNodup⟩ := nodup_ids_build_iff 0 _ _ hSuite
  refine ⟨_, hSuite, rfl, hNodup.mpr ?_⟩
  intro name number hTwo hCount hMem
  have hNames : number ≤ ["F", "a", "a", "a [3]"].count name := hCount
  by_cases hName : name = "a"
  · obtain rfl : number = 2 := by
      rw [hName] at hNames
      exact Nat.le_antisymm hNames hTwo
    rw [hName] at hMem
    exact absurd hMem (by decide +kernel)
  · have hOnce : (["F", "a", "a", "a [3]"].filter (· != "a")).count name ≤ 1 :=
      List.nodup_iff_count_le_one.mp (by decide +kernel) name
    rw [List.count_filter (by simpa using hName)] at hOnce
    omega

/-- The second scenario `a` and the scenario `a [2]` have one id. -/
theorem not_nodup_ids_of_numbered_name :
    ¬ ∀ (uri text : String) (generation : Int) (suite : Suite), build uri text generation = some suite →
      (suite.walk.map Node.id).Nodup := by
  intro h
  have hSuite : build "f" "Feature: F\nScenario: a\nScenario: a\nScenario: a [2]" 0 = some
      ⟨⟨"f/F", "F", "f", Span.ofLine 0 10, 0, false⟩,
        [.case ⟨"f/a", "a", "f", Span.ofLine 1 11, ⟨1, 11⟩, 0, false, "a"⟩,
          .case ⟨"f/a [2]", "a", "f", Span.ofLine 2 11, ⟨2, 11⟩, 0, false, "a"⟩,
          .case ⟨"f/a [2]", "a [2]", "f", Span.ofLine 3 15, ⟨3, 15⟩, 0, false, "a [2]"⟩]⟩ := by
    rfl
  have hNodup : ["f/F", "f/a", "f/a [2]", "f/a [2]"].Nodup := h _ _ _ _ hSuite
  exact absurd hNodup (by decide +kernel)

end ScenarioRunner.Feature
