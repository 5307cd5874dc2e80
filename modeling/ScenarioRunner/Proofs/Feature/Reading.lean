import Mathlib.Data.List.Basic
import ScenarioRunner.Proofs.Feature.History

/-!
# Reading files one after the other

Whether a file has a match does not depend on when it is read. Main statements: a file that is collected at all is
collected as often as it is read, and a file that is read once is stored as it was collected.
-/

namespace ScenarioRunner.Feature

open ScenarioRunner.Files

set_option autoImplicit false

variable {filter : Option String} {uri : String}

/-! ## Matches -/

theorem Node.passes_withoutIds (n : Node) : n.withoutIds.passes filter = n.passes filter := by
  cases n <;> rfl

theorem Suite.containsMatch_withoutIds (s : Suite) : s.withoutIds.containsMatch filter = s.containsMatch filter := by
  rw [Suite.containsMatch, Suite.containsMatch, Suite.walk_withoutIds, List.any_map]
  congr 2
  funext n
  exact n.passes_withoutIds

theorem map_passes_blockCases (name : String) (anchor : Position) (rows : List Row) (g g' : Int) :
    (blockCases uri g name anchor rows).map (Case.passes · filter) =
      (blockCases uri g' name anchor rows).map (Case.passes · filter) := by
  cases rows with
  | nil => rfl
  | cons first rest =>
    rw [blockCases, blockCases, List.map_map, List.map_map]
    rfl

theorem Section.map_passes_walk (s : Section) (g g' : Int) :
    (s.node uri g).walk.map (Node.passes filter) = (s.node uri g').walk.map (Node.passes filter) := by
  rw [Section.node, Section.node]
  split
  · have hRows : (s.cases uri g).map (Case.passes · filter) = (s.cases uri g').map (Case.passes · filter) := by
      rw [Section.cases, Section.cases, List.map_flatMap, List.map_flatMap]
      congr 1
      funext rows
      exact map_passes_blockCases s.name s.span.stop rows g g'
    rw [Node.walk, Node.walk, walkAll_cases, walkAll_cases, List.map_cons, List.map_cons, List.map_map, List.map_map]
    exact congrArg (List.cons _) hRows
  · rfl

theorem map_containsMatch_lexicalTree? (events : List Event) (g g' : Int) :
    (lexicalTree? uri g events).map (·.containsMatch filter) =
      (lexicalTree? uri g' events).map (·.containsMatch filter) := by
  induction events with
  | nil => rfl
  | cons e rest ih =>
    obtain ⟨line, width, kind⟩ := e
    cases kind with
    | feature name =>
      have hWalk : ∀ g : Int, (walkAll ((sections rest).map (Section.node uri g))).any (Node.passes filter) =
          ((sections rest).flatMap fun s => (s.node uri g).walk.map (Node.passes filter)).any id := by
        intro g
        induction sections rest with
        | nil => rfl
        | cons s later ihLater =>
          rw [List.map_cons, walkAll, List.any_append, ihLater, List.flatMap_cons, List.any_append, List.any_map]
          rfl
      have hSections : ((sections rest).flatMap fun s => (s.node uri g).walk.map (Node.passes filter)) =
          (sections rest).flatMap fun s => (s.node uri g').walk.map (Node.passes filter) := by
        congr 1
        funext s
        exact s.map_passes_walk g g'
      simp only [lexicalTree?, Option.map_some, Suite.containsMatch, Suite.walk, Suite.node, Node.walk, List.any_cons,
        hWalk, hSections]
      rfl
    | scenario name isOutline => exact ih
    | examples => exact ih
    | tableRow cells => exact ih

/-- Which filters a text has a match for does not depend on its generation. -/
theorem map_containsMatch_build (text : String) (g g' : Int) :
    (build uri text g).map (·.containsMatch filter) = (build uri text g').map (·.containsMatch filter) := by
  have hTree : ∀ g : Int, (build uri text g).map (·.containsMatch filter) =
      (lexicalTree? uri g (scan text)).map (·.containsMatch filter) := by
    intro g
    rw [← map_withoutIds_build, Option.map_map]
    congr 1
    funext s
    exact s.containsMatch_withoutIds.symm
  rw [hTree, hTree, map_containsMatch_lexicalTree? _ g g']

/-! ## One file -/

def Store.collects (s : Store) (filter : Option String) (uri text : String) : Bool :=
  (s.update uri text).2.root.any (·.containsMatch filter)

theorem Store.uri_update (s : Store) (uri text : String) : (s.update uri text).2.uri = uri := by
  have hFound := List.find?_some (s.find?_update uri text)
  exact beq_iff_eq.mp hFound

theorem Store.root_update (s : Store) (uri text : String) :
    (s.update uri text).2.root = (build uri text s.nextGeneration).or ((s.find? uri).bind FeatureFile.root) := by
  rcases s.update_cases uri text with ⟨previous, hBuild, hFile, hUpdate⟩ | ⟨hNew, hUpdate⟩
  · rw [hUpdate, hBuild, hFile]
    rfl
  · rw [hUpdate]
    rcases hNew with hNone | hSome
    · rw [hNone, Option.bind_none, Option.or_none]
    · obtain ⟨suite, hSuite⟩ := Option.ne_none_iff_exists'.mp hSome
      rw [hSuite, Option.some_or]

theorem Store.collects_eq (s : Store) (uri text : String) :
    s.collects filter uri text = ((build uri text 0).map (·.containsMatch filter)).getD
      (((s.find? uri).bind FeatureFile.root).any (·.containsMatch filter)) := by
  rw [Store.collects, s.root_update, map_containsMatch_build text 0 s.nextGeneration]
  cases build uri text s.nextGeneration <;> rfl

/-- Reading the file before, or any other file, changes nothing. -/
theorem Store.collects_update (s : Store) {other : String} {text otherText : String}
    (h : other = uri → otherText = text) :
    (s.update other otherText).1.collects filter uri text = s.collects filter uri text := by
  by_cases hUri : other = uri
  · obtain rfl := hUri
    obtain rfl := h rfl
    rw [Store.collects_eq, Store.find?_update, Option.bind_some]
    change Option.getD _ (s.collects filter other otherText) = _
    rw [s.collects_eq]
    cases (build other otherText 0).map (·.containsMatch filter) <;> rfl
  · rw [Store.collects_eq, s.find?_update_of_ne hUri, ← s.collects_eq]

/-! ## Many files -/

def uriAt (t : FileTree) (p : Path) : String :=
  (t.workingDir.resolve p).uri

section

variable {t : FileTree} {s s' : Store} {paths : List Path} {files : List FeatureFile}

theorem Store.exists_of_readFiles_cons {p : Path} (h : s.readFiles t filter (p :: paths) = .ok (s', files)) :
    ∃ later, (s.update (uriAt t p) (textAt t p)).1.readFiles t filter paths = .ok (s', later) ∧
      files = if s.collects filter (uriAt t p) (textAt t p) then (s.update (uriAt t p) (textAt t p)).2 :: later
        else later := by
  obtain ⟨read, hRead, h⟩ := exists_of_bind_eq_ok h
  obtain ⟨last, hRest, h⟩ := exists_of_bind_eq_ok h
  rw [Store.updateFromDisk] at hRead
  split at hRead
  · cases hRead
  · obtain rfl := Except.ok.inj hRead
    cases h
    exact ⟨last.2, hRest, rfl⟩

theorem Store.exists_path_of_mem_readFiles (h : s.readFiles t filter paths = .ok (s', files)) :
    ∀ file ∈ files, ∃ p ∈ paths, uriAt t p = file.uri := by
  induction paths generalizing s files with
  | nil =>
    cases h
    simp
  | cons p paths ih =>
    obtain ⟨later, hLater, hFiles⟩ := Store.exists_of_readFiles_cons h
    have hRest : ∀ file ∈ later, ∃ q ∈ p :: paths, uriAt t q = file.uri := by
      intro file hFile
      obtain ⟨q, hq, hUri⟩ := ih hLater file hFile
      exact ⟨q, List.mem_cons_of_mem p hq, hUri⟩
    rw [hFiles]
    split
    · intro file hFile
      rcases List.mem_cons.mp hFile with rfl | hFile
      · exact ⟨p, List.mem_cons_self, (s.uri_update _ _).symm⟩
      · exact hRest file hFile
    · exact hRest

theorem Store.find?_readFiles_of_ne (h : s.readFiles t filter paths = .ok (s', files))
    (hOther : ∀ p ∈ paths, uriAt t p ≠ uri) : s'.find? uri = s.find? uri := by
  induction paths generalizing s files with
  | nil =>
    cases h
    rfl
  | cons p paths ih =>
    obtain ⟨later, hLater, -⟩ := Store.exists_of_readFiles_cons h
    rw [ih hLater fun q hq => hOther q (List.mem_cons_of_mem p hq), s.find?_update_of_ne (hOther p List.mem_cons_self)]

/-- A file is collected as often as it is read, or never. -/
theorem Store.count_uri_readFiles (h : s.readFiles t filter paths = .ok (s', files)) {text : String}
    (hText : ∀ p ∈ paths, uriAt t p = uri → textAt t p = text) :
    (files.map FeatureFile.uri).count uri = if s.collects filter uri text then (paths.map (uriAt t)).count uri else 0 := by
  induction paths generalizing s files with
  | nil =>
    cases h
    simp
  | cons p paths ih =>
    obtain ⟨later, hLater, hFiles⟩ := Store.exists_of_readFiles_cons h
    have hRest := ih hLater fun q hq => hText q (List.mem_cons_of_mem p hq)
    -- Whether the file is collected later on is the same as before the first reading.
    rw [s.collects_update (hText p List.mem_cons_self)] at hRest
    rw [hFiles, List.map_cons, List.count_cons]
    by_cases hUri : uriAt t p = uri
    · rw [hText p List.mem_cons_self hUri, hUri]
      split
      · next hCollects => rw [List.map_cons, List.count_cons, hRest, s.uri_update, if_pos hCollects]
      · next hCollects => rw [hRest, if_neg hCollects]
    · have hOther : ¬(uriAt t p == uri) = true := by simpa using hUri
      rw [if_neg hOther, Nat.add_zero, ← hRest]
      split
      · rw [List.map_cons, List.count_cons, s.uri_update, if_neg hOther, Nat.add_zero]
      · rfl

theorem Store.find?_of_mem_readFiles (h : s.readFiles t filter paths = .ok (s', files)) {file : FeatureFile}
    (hFile : file ∈ files) (hOnce : (paths.map (uriAt t)).count file.uri ≤ 1) : s'.find? file.uri = some file := by
  induction paths generalizing s files with
  | nil =>
    cases h
    cases hFile
  | cons p paths ih =>
    obtain ⟨later, hLater, hFiles⟩ := Store.exists_of_readFiles_cons h
    rw [List.map_cons, List.count_cons] at hOnce
    have hRest : file ∈ later → s'.find? file.uri = some file := fun hFile => ih hLater hFile (by omega)
    rw [hFiles] at hFile
    split at hFile
    · rcases List.mem_cons.mp hFile with rfl | hFile
      · have hUri := s.uri_update (uriAt t p) (textAt t p)
        rw [hUri] at hOnce ⊢
        rw [beq_self_eq_true, if_pos rfl] at hOnce
        have hOther : ∀ q ∈ paths, uriAt t q ≠ uriAt t p := by
          intro q hq hSame
          have hCount : 0 < (paths.map (uriAt t)).count (uriAt t p) :=
            List.count_pos_iff.mpr (List.mem_map.mpr ⟨q, hq, hSame⟩)
          omega
        rw [Store.find?_readFiles_of_ne hLater hOther, s.find?_update]
      · exact hRest hFile
    · exact hRest hFile

end

/-- Every case that a stored file gives is current. -/
theorem Store.Consistent.isStale_eq_false {s : Store} (h : s.Consistent) {file : FeatureFile}
    (hFile : s.find? file.uri = some file) {suite : Suite} (hSuite : file.root = some suite) {c : Case}
    (hCase : suite.Gives c) : s.isStale c = false := by
  obtain ⟨hUri, hGeneration⟩ := hCase.belongs_of_walk (h.belongs file (List.mem_of_find?_eq_some hFile) suite hSuite)
  rw [Store.isStale, hUri, hFile, hGeneration]
  exact bne_self_eq_false file.generation

end ScenarioRunner.Feature
