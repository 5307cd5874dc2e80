import ScenarioRunner.Proofs.Feature.LexicalTree

/-!
# The nodes of a tree

Main statement: all nodes of a tree belong to its file and its generation, and so do the cases that stand for whole
outlines.
-/

namespace ScenarioRunner.Feature

set_option autoImplicit false

def Node.name : Node → String
  | .case c => c.name
  | .suite header _ => header.name

def Node.uri : Node → String
  | .case c => c.uri
  | .suite header _ => header.uri

def Node.generation : Node → Int
  | .case c => c.generation
  | .suite header _ => header.generation

/-- The cases of a tree, and those that stand for all rows of an outline in it. -/
inductive Suite.Gives (s : Suite) : Case → Prop where
  | member {c : Case} (h : c ∈ s.cases) : s.Gives c
  | outline {header : Header} {children : List Node} {c : Case} (h : .suite header children ∈ s.walk)
      (hCase : header.outlineCase = .ok c) : s.Gives c

@[simp] theorem Node.uri_withoutIds (n : Node) : n.withoutIds.uri = n.uri := by
  cases n <;> rfl

@[simp] theorem Node.generation_withoutIds (n : Node) : n.withoutIds.generation = n.generation := by
  cases n <;> rfl

mutual

theorem Node.walk_withoutIds (n : Node) : n.withoutIds.walk = n.walk.map Node.withoutIds := by
  cases n with
  | case c => rfl
  | suite header children =>
    rw [Node.withoutIds, Node.walk, Node.walk, List.map_cons, Node.withoutIds, walkAll_withoutIdsAll children]

theorem walkAll_withoutIdsAll (nodes : List Node) :
    walkAll (withoutIdsAll nodes) = (walkAll nodes).map Node.withoutIds := by
  cases nodes with
  | nil => rfl
  | cons n rest =>
    rw [withoutIdsAll, walkAll, walkAll, List.map_append, n.walk_withoutIds, walkAll_withoutIdsAll rest]

end

theorem walkAll_append (nodes others : List Node) : walkAll (nodes ++ others) = walkAll nodes ++ walkAll others := by
  induction nodes with
  | nil => rfl
  | cons n nodes ih => rw [List.cons_append, walkAll, walkAll, ih, List.append_assoc]

theorem walkAll_cases (rows : List Case) : walkAll (rows.map .case) = rows.map .case := by
  induction rows with
  | nil => rfl
  | cons c rows ih =>
    rw [List.map_cons, walkAll, ih]
    rfl

theorem mem_walkAll {n : Node} {nodes : List Node} : n ∈ walkAll nodes ↔ ∃ m ∈ nodes, n ∈ m.walk := by
  induction nodes with
  | nil => simp [walkAll]
  | cons first rest ih => simp [walkAll, ih]

theorem Suite.walk_withoutIds (s : Suite) : s.withoutIds.walk = s.walk.map Node.withoutIds := by
  rw [Suite.walk, Suite.walk, ← Node.walk_withoutIds, Suite.node, Suite.node, Suite.withoutIds, Node.withoutIds,
    withoutIdsAll_eq_map]

variable {uri : String} {generation : Int}

theorem Section.belongs_of_mem_walk (s : Section) :
    ∀ n ∈ (s.node uri generation).walk, n.uri = uri ∧ n.generation = generation := by
  intro n hn
  rw [Section.node] at hn
  split at hn
  · rcases List.mem_cons.mp hn with rfl | hn
    · exact ⟨rfl, rfl⟩
    obtain ⟨m, hm, hn⟩ := mem_walkAll.mp hn
    obtain ⟨c, hc, rfl⟩ := List.mem_map.mp hm
    obtain rfl := List.mem_singleton.mp hn
    obtain ⟨_, _, row, _, columns, rfl⟩ := s.exists_row_of_mem_cases hc
    exact ⟨rfl, rfl⟩
  · obtain rfl := List.mem_singleton.mp hn
    exact ⟨rfl, rfl⟩

theorem belongs_of_mem_lexicalTree? {events : List Event} :
    ∀ suite ∈ lexicalTree? uri generation events, ∀ n ∈ suite.walk, n.uri = uri ∧ n.generation = generation := by
  induction events with
  | nil => simp [lexicalTree?]
  | cons e rest ih =>
    obtain ⟨line, width, kind⟩ := e
    cases kind with
    | feature name =>
      intro suite hSuite n hn
      cases hSuite
      rcases List.mem_cons.mp hn with rfl | hn
      · exact ⟨rfl, rfl⟩
      obtain ⟨m, hm, hn⟩ := mem_walkAll.mp hn
      obtain ⟨s, -, rfl⟩ := List.mem_map.mp hm
      exact s.belongs_of_mem_walk n hn
    | scenario name isOutline => exact ih
    | examples => exact ih
    | tableRow cells => exact ih

/-- Every node of a tree carries the file and the generation that the tree was built for. -/
theorem belongs_of_mem_build {text : String} {suite : Suite} (h : build uri text generation = some suite) :
    ∀ n ∈ suite.walk, n.uri = uri ∧ n.generation = generation := by
  intro n hn
  have hTree := lexicalTree?_of_build uri generation h
  have hNode : n.withoutIds ∈ suite.withoutIds.walk := by
    rw [Suite.walk_withoutIds]
    exact List.mem_map_of_mem hn
  obtain ⟨hUri, hGeneration⟩ := belongs_of_mem_lexicalTree? _ hTree _ hNode
  rw [Node.uri_withoutIds] at hUri
  rw [Node.generation_withoutIds] at hGeneration
  exact ⟨hUri, hGeneration⟩

theorem Suite.Gives.belongs_of_walk {suite : Suite} {c : Case} (hCase : suite.Gives c)
    (hWalk : ∀ n ∈ suite.walk, n.uri = uri ∧ n.generation = generation) : c.uri = uri ∧ c.generation = generation := by
  cases hCase with
  | member hMem =>
    obtain ⟨n, hn, hCase⟩ := List.mem_filterMap.mp hMem
    cases n with
    | case c' =>
      cases hCase
      exact hWalk _ hn
    | suite header children => cases hCase
  | @outline header children c hMem hCase =>
    have hHeader := hWalk _ hMem
    rw [Header.outlineCase] at hCase
    split_ifs at hCase
    cases hCase
    exact hHeader

theorem Suite.Gives.belongs {text : String} {suite : Suite} {c : Case} (h : build uri text generation = some suite)
    (hCase : suite.Gives c) : c.uri = uri ∧ c.generation = generation :=
  hCase.belongs_of_walk (belongs_of_mem_build h)

end ScenarioRunner.Feature
