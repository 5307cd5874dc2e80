import Mathlib.Data.List.Nodup
import ScenarioRunner.Proofs.Feature.Reading
import ScenarioRunner.Proofs.Files.Found
import ScenarioRunner.Proofs.Run.Selection

/-!
# Files that have just been parsed

Patterns find each path once, but the store knows a file by its resolved path. Main statement: the files of a parse are
fresh exactly if none of them has been found by two paths.
-/

namespace ScenarioRunner.Run

open ScenarioRunner.Feature
open ScenarioRunner.Files
open ScenarioRunner.Text

set_option autoImplicit false

/-- The files are told apart by their URIs, and a run that is started with them skips none of their cases as changed. -/
structure IsFresh (s : Store) (files : List FeatureFile) : Prop where
  nodup : (files.map FeatureFile.uri).Nodup
  cases : ∀ file ∈ files, ∀ c ∈ file.cases, s.isStale c = false
  queue : ∀ selection : Selection, ∀ c ∈ selection.collect files, s.isStale c = false

/-! ## Queued cases -/

theorem Selection.Adds.gives {s : Selection} {suite : Suite} {p : Placed} (hp : p ∈ suite.placed) {c : Case}
    (h : s.Adds p c) : suite.Gives c := by
  have hMem := suite.node_mem_walk hp
  cases h with
  | case hNode hAdmits hPasses hApart =>
    rw [hNode] at hMem
    exact .member (List.mem_filterMap.mpr ⟨_, hMem, rfl⟩)
  | outline hNode hAdmits hMatch hCase hApart =>
    rw [hNode] at hMem
    exact .outline hMem hCase

theorem Selection.exists_gives_of_mem_collect {s : Selection} {files : List FeatureFile} {c : Case}
    (h : c ∈ s.collect files) : ∃ file ∈ files, ∃ suite, file.root = some suite ∧ suite.Gives c := by
  rw [Selection.collect_eq_filterMap] at h
  obtain ⟨p, hp, hCase⟩ := List.mem_filterMap.mp h
  obtain ⟨file, hFile, hPlaced⟩ := List.mem_flatMap.mp hp
  cases hRoot : file.root with
  | none =>
    rw [hRoot] at hPlaced
    cases hPlaced
  | some suite =>
    rw [hRoot] at hPlaced
    exact ⟨file, hFile, suite, hRoot, (Selection.adds_of_caseAt? hCase).gives hPlaced⟩

/-! ## Parsed files -/

theorem count_map_le_one_iff {α β : Type} [DecidableEq β] {f : α → β} {l : List α} {b : β} :
    (l.map f).count b ≤ 1 ↔ l.Pairwise fun x y => f x = b → f y ≠ b := by
  induction l with
  | nil => simp
  | cons x l ih =>
    rw [List.map_cons, List.count_cons, List.pairwise_cons, ← ih]
    by_cases hx : f x = b
    · have hCount : (l.map f).count b = 0 ↔ ∀ y ∈ l, f y ≠ b := by
        rw [List.count_eq_zero, List.mem_map, not_exists]
        exact forall_congr' fun y => by rw [not_and]
      rw [if_pos (beq_iff_eq.mpr hx)]
      constructor
      · intro hLe
        exact ⟨fun y hy _ => hCount.mp (by omega) y hy, by omega⟩
      · rintro ⟨hOthers, -⟩
        have hNone := hCount.mpr fun y hy => hOthers y hy hx
        omega
    · rw [if_neg (by simpa using hx), Nat.add_zero]
      exact ⟨fun hLe => ⟨fun y _ hEq => absurd hEq hx, hLe⟩, And.right⟩

section

variable {t : FileTree} {filter : Option String} {s s' : Store} {paths : List Path} {files : List FeatureFile}

theorem uriAt_eq_iff (hTree : t.IsWellFormed) {p q : Path} (hp : t.Finds p) (hq : t.Finds q) :
    uriAt t p = uriAt t q ↔ t.workingDir.resolve p = t.workingDir.resolve q :=
  ⟨(hp.isResolved hTree).eq_of_uri_eq (hq.isResolved hTree), congrArg Path.uri⟩

theorem textAt_eq (hTree : t.IsWellFormed) {p q : Path} (hp : t.Finds p) (hq : t.Finds q) (h : uriAt t p = uriAt t q) :
    textAt t p = textAt t q := by
  rw [textAt, textAt, hp.readText_eq hq ((uriAt_eq_iff hTree hp hq).mp h)]

theorem count_uri_of_finds (hTree : t.IsWellFormed) (hPaths : ∀ p ∈ paths, t.Finds p)
    (h : s.readFiles t filter paths = .ok (s', files)) (uri : String) :
    (files.map FeatureFile.uri).count uri = 0 ∨
      (files.map FeatureFile.uri).count uri = (paths.map (uriAt t)).count uri := by
  by_cases hUri : ∃ p ∈ paths, uriAt t p = uri
  · obtain ⟨p, hp, rfl⟩ := hUri
    rw [Store.count_uri_readFiles h fun q hq hSame => textAt_eq hTree (hPaths q hq) (hPaths p hp) hSame]
    split
    · exact .inr rfl
    · exact .inl rfl
  · refine .inl (List.count_eq_zero.mpr ?_)
    intro hMem
    obtain ⟨file, hFile, rfl⟩ := List.mem_map.mp hMem
    exact hUri (Store.exists_path_of_mem_readFiles h file hFile)

theorem isFresh_readFiles_iff (hTree : t.IsWellFormed) (hPaths : ∀ p ∈ paths, t.Finds p) (hStore : s.Consistent)
    (h : s.readFiles t filter paths = .ok (s', files)) :
    IsFresh s' files ↔ ∀ file ∈ files, (paths.map (uriAt t)).count file.uri ≤ 1 := by
  have hCount := count_uri_of_finds hTree hPaths h
  constructor
  · intro hFresh file hFile
    have hOnce := List.nodup_iff_count_le_one.mp hFresh.nodup file.uri
    have hSome : 0 < (files.map FeatureFile.uri).count file.uri := List.count_pos_iff.mpr (List.mem_map_of_mem hFile)
    rcases hCount file.uri with hNone | hSame
    · omega
    · omega
  · intro hOnce
    have hLast : s'.Consistent := by
      rw [Store.eq_afterReading_of_readFiles h, Store.afterReading_eq_foldl]
      exact hStore.foldl_run _
    -- A file that is read once is still stored as it was read, and its tree has its generation.
    have hCurrent : ∀ file ∈ files, ∀ suite, file.root = some suite → ∀ c, suite.Gives c → s'.isStale c = false := by
      intro file hFile suite hSuite c hCase
      exact hLast.isStale_eq_false (Store.find?_of_mem_readFiles h hFile (hOnce file hFile)) hSuite hCase
    constructor
    · rw [List.nodup_iff_count_le_one]
      intro uri
      rcases hCount uri with hNone | hSame
      · omega
      · by_cases hMem : uri ∈ files.map FeatureFile.uri
        · obtain ⟨file, hFile, rfl⟩ := List.mem_map.mp hMem
          rw [hSame]
          exact hOnce file hFile
        · rw [List.count_eq_zero.mpr hMem]
          exact Nat.zero_le 1
    · intro file hFile c hc
      rw [FeatureFile.cases] at hc
      split at hc
      · next suite hSuite => exact hCurrent file hFile suite hSuite c (.member hc)
      · cases hc
    · intro selection c hc
      obtain ⟨file, hFile, suite, hSuite, hCase⟩ := Selection.exists_gives_of_mem_collect hc
      exact hCurrent file hFile suite hSuite c hCase

/-- A URI is counted once where the paths that are resolved to it are one path. -/
theorem count_uri_le_one_iff (hTree : t.IsWellFormed) (hPaths : ∀ p ∈ paths, t.Finds p) :
    (∀ file ∈ files, (paths.map (uriAt t)).count file.uri ≤ 1) ↔
      paths.Pairwise fun p q => t.workingDir.resolve p = t.workingDir.resolve q →
        ∀ file ∈ files, file.uri ≠ (t.workingDir.resolve p).uri := by
  constructor
  · intro hOnce
    rw [List.pairwise_iff_forall_sublist]
    intro p q hSublist hSame file hFile hUri
    have hApart := List.pairwise_iff_forall_sublist.mp (count_map_le_one_iff.mp (hOnce file hFile)) hSublist
    apply hApart hUri.symm
    rw [hUri, hSame]
    rfl
  · intro hApart file hFile
    rw [count_map_le_one_iff]
    apply hApart.imp_of_mem
    intro p q hp hq hPair hFirst hSecond
    have hSame := (uriAt_eq_iff hTree (hPaths p hp) (hPaths q hq)).mp (hFirst.trans hSecond.symm)
    exact hPair hSame file hFile hFirst.symm

end

/-- After any history, the files of a parse are fresh exactly if no two paths lead to one of them. That is so if all
patterns start from one root and have no double dots. -/
theorem isFresh_parseFeatures_iff (calls : List Call) {t : FileTree} (hTree : t.IsWellFormed) {base : Path}
    {patterns : List String} {filter : Option String} {s : Store} {files : List FeatureFile}
    (h : (afterCalls calls).parseFeatures t base patterns filter = .ok (s, files)) :
    (∃ paths, t.globAll base patterns = .ok paths ∧
      (IsFresh s files ↔ paths.Pairwise fun p q => t.workingDir.resolve p = t.workingDir.resolve q →
        ∀ file ∈ files, file.uri ≠ (t.workingDir.resolve p).uri)) ∧
    ∀ root, (∀ pattern ∈ patterns, (base.join (.ofText pattern)).root = root ∧
      ".." ∉ (base.join (.ofText pattern)).names) → IsFresh s files := by
  obtain ⟨paths, hGlob, hRead⟩ := exists_of_bind_eq_ok h
  have hFound := t.findsBy_of_mem_globAll hTree hGlob
  have hPaths : ∀ p ∈ paths, t.Finds p := by
    intro p hp
    obtain ⟨pattern, -, hBy⟩ := hFound p hp
    exact hBy.finds
  have hFresh := (isFresh_readFiles_iff hTree hPaths (consistent_afterCalls calls) hRead).trans
    (count_uri_le_one_iff hTree hPaths)
  refine ⟨⟨paths, hGlob, hFresh⟩, ?_⟩
  intro root hPatterns
  have hDirect : ∀ p ∈ paths, p.root = root ∧ ".." ∉ p.names := by
    intro p hp
    obtain ⟨pattern, hPattern, hBy⟩ := hFound p hp
    obtain ⟨hRoot, hUp⟩ := hPatterns pattern hPattern
    exact ⟨hBy.root_eq.trans hRoot, hBy.up_notMem hUp⟩
  -- The patterns may overlap: a path that two of them find is there once.
  rw [hFresh]
  apply (t.nodup_of_globAll hGlob).imp_of_mem
  intro p q hp hq hNe hSame
  obtain ⟨hRoot, hUp⟩ := hDirect p hp
  obtain ⟨hRoot', hUp'⟩ := hDirect q hq
  exact absurd (eq_of_resolve_eq (hRoot.trans hRoot'.symm) hUp hUp' hSame) hNe

def fileBesideDirectory : FileTree where
  workingDir := { root := "/" }
  entries := [(["a.feature"], .file (encodeUtf8 "Feature: F\nScenario: s")), (["d"], .directory)]

/-- Two patterns that find the file by one path. -/
theorem isFresh_of_overlapping_patterns :
    fileBesideDirectory.IsWellFormed ∧
      ∃ s files, (afterCalls []).parseFeatures fileBesideDirectory {} ["*.feature", "./a.feature"] none = .ok (s, files) ∧
        files.map FeatureFile.uri = ["file:///a.feature"] ∧ IsFresh s files := by
  have hTree : fileBesideDirectory.IsWellFormed := by
    constructor <;> decide +kernel
  have hParsed : ∃ result ∈ ((afterCalls []).parseFeatures fileBesideDirectory {}
      ["*.feature", "./a.feature"] none).toOption, result.2.map FeatureFile.uri = ["file:///a.feature"] := by
    decide +kernel
  obtain ⟨⟨s, files⟩, hResult, hUris⟩ := hParsed
  have hOk := eq_ok_of_mem_toOption hResult
  refine ⟨hTree, s, files, hOk, hUris, (isFresh_parseFeatures_iff [] hTree hOk).2 "" ?_⟩
  decide +kernel

/-- Two patterns that find the file by two paths: it is there twice, and the case of its first reading is stale. -/
theorem not_isFresh_of_two_spellings :
    ∃ s files, (afterCalls []).parseFeatures fileBesideDirectory {} ["*.feature", "d/../a.feature"] none = .ok (s, files) ∧
      files.map FeatureFile.uri = ["file:///a.feature", "file:///a.feature"] ∧
      (files.flatMap FeatureFile.cases).map s.isStale = [true, false] ∧ ¬IsFresh s files := by
  have hFound : ["*.feature", "d/../a.feature"].mapM (fileBesideDirectory.glob {}) =
      .ok [[⟨"", ["a.feature"]⟩], [⟨"", ["d", "..", "a.feature"]⟩]] := by
    decide +kernel
  have hPaths : fileBesideDirectory.globAll {} ["*.feature", "d/../a.feature"] =
      .ok [⟨"", ["a.feature"]⟩, ⟨"", ["d", "..", "a.feature"]⟩] := by
    rw [FileTree.globAll, hFound]
    exact congrArg Except.ok (List.mergeSort_of_pairwise (by decide +kernel))
  have hRead : ∃ result ∈ ((afterCalls []).readFiles fileBesideDirectory none
      [⟨"", ["a.feature"]⟩, ⟨"", ["d", "..", "a.feature"]⟩]).toOption,
      result.2.map FeatureFile.uri = ["file:///a.feature", "file:///a.feature"] ∧
        (result.2.flatMap FeatureFile.cases).map result.1.isStale = [true, false] := by
    decide +kernel
  obtain ⟨⟨s, files⟩, hResult, hUris, hStale⟩ := hRead
  refine ⟨s, files, ?_, hUris, hStale, ?_⟩
  · rw [Store.parseFeatures, hPaths]
    exact eq_ok_of_mem_toOption hResult
  · intro hFresh
    have hNodup := hFresh.nodup
    rw [hUris] at hNodup
    exact absurd hNodup (by decide)

end ScenarioRunner.Run
