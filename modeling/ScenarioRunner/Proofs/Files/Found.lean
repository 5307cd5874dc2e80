import Mathlib.Tactic.Common
import ScenarioRunner.Files.Glob
import ScenarioRunner.Proofs.Files.Location

/-!
# Files that patterns find

A pattern goes through a tree from entry to entry, and keeps the path by which it goes. Main statements: the path of every
file that is found leads to the file, and has double dots only where a pattern or the start has them.
-/

namespace ScenarioRunner.Files

set_option autoImplicit false

section

variable {t : FileTree}

/-! ## Places -/

structure FileTree.Leads (t : FileTree) (p : Place) : Prop where
  foldlM_follow : (t.workingDir.join p.path).names.foldlM t.follow [] = .ok p.names
  hasNull : p.path.hasNull = false

theorem FileTree.Leads.append {p : Place} (h : t.Leads p) {below there : List String}
    (hBelow : below.foldlM t.follow p.names = .ok there) (hNull : ∀ name ∈ below, '\x00' ∉ name.toList) :
    t.Leads ⟨{ p.path with names := p.path.names ++ below }, there⟩ where
  foldlM_follow := by
    rw [names_join_append, List.foldlM_append, h.foldlM_follow]
    exact hBelow
  hasNull := by
    have hPath := h.hasNull
    rw [Path.hasNull] at hPath ⊢
    rw [List.any_append, hPath, Bool.false_or, List.any_eq_false]
    intro name hName hContains
    exact hNull name hName (List.contains_iff_mem.mp hContains)

theorem FileTree.Leads.enter (hTree : t.IsWellFormed) {p : Place} (h : t.Leads p) {e : List String × Content}
    (he : e ∈ t.entries) {below : List String} (hBelow : p.names ++ below = e.1) : t.Leads (p.enter below) := by
  have hPlace := h.append (hTree.foldlM_follow he hBelow) fun name hName =>
    (hTree.isName e he name (hBelow ▸ List.mem_append_right p.names hName)).null_notMem
  rwa [← hBelow] at hPlace

theorem FileTree.Leads.follow (hTree : t.IsWellFormed) {p : Place} (h : t.Leads p) {name : String}
    (hHere : t.isDirectoryAt p.names = true) (hThere : (t.find? (p.follow name).names).isSome = true) :
    t.Leads (p.follow name) := by
  rw [Place.follow] at hThere ⊢
  split
  · next hUp =>
    obtain rfl : name = ".." := beq_iff_eq.mp hUp
    apply h.append
    · rw [List.foldlM_cons, t.follow_up hHere]
      rfl
    · simp
  · next hUp =>
    rw [if_neg hUp] at hThere
    obtain ⟨content, hContent⟩ := Option.isSome_iff_exists.mp hThere
    exact h.enter hTree (FileTree.mem_of_find?_eq_some (by simp [Place.enter]) hContent) rfl

theorem Place.eq_of_reached {p q : Place} (h : p.reached = .ok q) : q = p ∧ p.isTooLong = false := by
  rw [Place.reached] at h
  split at h
  · cases h
  · next hLong =>
    cases h
    exact ⟨rfl, Bool.not_eq_true _ ▸ hLong⟩

theorem FileTree.exists_of_mem_childNames {dir : List String} {name : String} (h : name ∈ t.childNames dir) :
    ∃ e ∈ t.entries, dir ++ [name] = e.1 := by
  obtain ⟨e, he, hName⟩ := List.mem_filterMap.mp h
  split at hName
  · next hBelow =>
    rw [Bool.and_eq_true, beq_iff_eq, List.isPrefixOf_iff_prefix] at hBelow
    obtain ⟨hLength, rest, hRest⟩ := hBelow
    have hRestLength : rest.length = 1 := by
      rw [← hRest, List.length_append] at hLength
      omega
    obtain ⟨last, rfl⟩ := List.length_eq_one_iff.mp hRestLength
    rw [← hRest, List.getLast?_concat] at hName
    cases hName
    exact ⟨e, he, hRest⟩
  · cases hName

theorem FileTree.exists_of_mem_directoriesBelow {dir below : List String} (h : below ∈ t.directoriesBelow dir) :
    below = [] ∨ ∃ e ∈ t.entries, dir ++ below = e.1 ∧ e.2 = .directory := by
  rcases List.mem_cons.mp h with rfl | h
  · exact .inl rfl
  · obtain ⟨e, he, hBelow⟩ := List.mem_filterMap.mp h
    split at hBelow
    · next hDirectory =>
      cases hBelow
      rw [Bool.and_eq_true, Bool.and_eq_true, beq_iff_eq, List.isPrefixOf_iff_prefix] at hDirectory
      obtain ⟨⟨hContent, -⟩, hPrefix⟩ := hDirectory
      exact .inr ⟨e, he, List.prefix_iff_eq_append.mp hPrefix, hContent⟩
    · cases hBelow

/-! ## Following a pattern -/

/-- The places to which a pattern comes from the start, with what is left of the pattern there. -/
inductive FileTree.Comes (t : FileTree) (parts : List Part) (start : Place) : List Part → Place → Prop where
  | start : t.Comes parts start parts start
  | name {text : String} {rest : List Part} {p : Place} (h : t.Comes parts start (.name text :: rest) p)
      (hThere : (t.find? (p.follow text).names).isSome = true)
      (hDirectory : rest ≠ [] → t.isDirectoryAt (p.follow text).names = true) : t.Comes parts start rest (p.follow text)
  | wild {pattern : List Wildcard} {rest : List Part} {p : Place} (h : t.Comes parts start (.wild pattern :: rest) p)
      {name : String} {e : List String × Content} (he : e ∈ t.entries) (hEntry : p.names ++ [name] = e.1)
      (hDirectory : rest ≠ [] → t.isDirectoryAt e.1 = true) : t.Comes parts start rest (p.enter [name])
  | stay {rest : List Part} {p : Place} (h : t.Comes parts start (.directories :: rest) p) : t.Comes parts start rest p
  | descend {rest : List Part} {p : Place} (h : t.Comes parts start (.directories :: rest) p) {below : List String}
      {e : List String × Content} (he : e ∈ t.entries) (hEntry : p.names ++ below = e.1) (hDirectory : e.2 = .directory) :
      t.Comes parts start rest (p.enter below)

section

variable {parts rest : List Part} {start p q : Place}

theorem FileTree.Comes.of_wild {pattern : List Wildcard} (h : t.Comes parts start (.wild pattern :: rest) p)
    (hNext : q ∈ (((t.childNames p.names).filter fun name => fits pattern name.toList).map fun name =>
      p.enter [name]).filter fun next => rest.isEmpty || t.isDirectoryAt next.names) : t.Comes parts start rest q := by
  obtain ⟨hMap, hDirectory⟩ := List.mem_filter.mp hNext
  obtain ⟨name, hName, rfl⟩ := List.mem_map.mp hMap
  obtain ⟨e, he, hEntry⟩ := t.exists_of_mem_childNames (List.mem_filter.mp hName).1
  apply h.wild he hEntry
  intro hRest
  rw [Place.enter, hEntry] at hDirectory
  simpa [hRest] using hDirectory

theorem FileTree.Comes.of_directories (h : t.Comes parts start (.directories :: rest) p)
    (hNext : q ∈ (t.directoriesBelow p.names).map p.enter) : t.Comes parts start rest q := by
  obtain ⟨below, hBelow, rfl⟩ := List.mem_map.mp hNext
  rcases t.exists_of_mem_directoriesBelow hBelow with rfl | ⟨e, he, hEntry, hDirectory⟩
  · have hSame : p.enter [] = p := by simp [Place.enter]
    rw [hSame]
    exact h.stay
  · exact h.descend he hEntry hDirectory

/-- A pattern comes to every place that it selects, and the path of the place is not too long. -/
theorem FileTree.comes_of_mem_select {found : List Place} (hSelect : t.select rest p = .ok found)
    (h : t.Comes parts start rest p) : ∀ q ∈ found, q.isTooLong = false ∧ ∃ last, t.Comes parts start last q := by
  -- A pattern ends with its last part, or with a slash after it.
  have hHere : ∀ {rest : List Part} {p : Place} {found : List Place}, t.Comes parts start rest p →
      (do return [← p.reached] : Except Fault _) = .ok found →
        ∀ q ∈ found, q.isTooLong = false ∧ ∃ last, t.Comes parts start last q := by
    intro rest p found h hFound q hq
    obtain ⟨reached, hReached, hResult⟩ := exists_of_bind_eq_ok hFound
    cases hResult
    obtain ⟨rfl, hLong⟩ := Place.eq_of_reached hReached
    obtain rfl := List.mem_singleton.mp hq
    exact ⟨hLong, rest, h⟩
  induction rest generalizing p found with
  | nil => exact hHere h hSelect
  | cons part rest ih =>
    have hEach : ∀ {nexts : List Place}, (∀ next ∈ nexts, t.Comes parts start rest next) →
        ∀ {founds : List (List Place)}, nexts.mapM (t.select rest) = .ok founds →
          ∀ q ∈ founds.flatten, q.isTooLong = false ∧ ∃ last, t.Comes parts start last q := by
      intro nexts hNexts founds hFounds q hq
      obtain ⟨found, hFound, hq⟩ := List.mem_flatten.mp hq
      obtain ⟨next, hNext, hSelect⟩ := exists_of_mem_of_mapM_eq_ok hFounds found hFound
      exact ih hSelect (hNexts next hNext) q hq
    cases part with
    | itself => exact hHere h hSelect
    | name text =>
      rw [FileTree.select] at hSelect
      split at hSelect
      · cases hSelect
      · split at hSelect
        · next hNext =>
          rw [Bool.and_eq_true] at hNext
          apply ih hSelect
          apply h.name hNext.1
          intro hRest
          simpa [hRest] using hNext.2
        · cases hSelect
          simp
    | wild pattern =>
      rw [FileTree.select] at hSelect
      obtain ⟨reached, hReached, hRest⟩ := exists_of_bind_eq_ok hSelect
      obtain ⟨rfl, -⟩ := Place.eq_of_reached hReached
      obtain ⟨founds, hFounds, hResult⟩ := exists_of_bind_eq_ok hRest
      cases hResult
      exact hEach (fun next hNext => h.of_wild hNext) hFounds
    | directories =>
      rw [FileTree.select] at hSelect
      obtain ⟨below, hBelow, hRest⟩ := exists_of_bind_eq_ok hSelect
      obtain ⟨founds, hFounds, hResult⟩ := exists_of_bind_eq_ok hRest
      cases hResult
      apply hEach _ hFounds
      intro next hNext
      obtain ⟨place, hPlace, hReached⟩ := exists_of_mem_of_mapM_eq_ok hBelow next hNext
      obtain ⟨rfl, -⟩ := Place.eq_of_reached hReached
      exact h.of_directories hPlace

/-- Only a directory has anything looked up in it, so that every path can be followed. -/
theorem FileTree.Comes.leads (hTree : t.IsWellFormed) (hStart : t.Leads start)
    (hDirectory : t.isDirectoryAt start.names = true) (h : t.Comes parts start rest p) :
    t.Leads p ∧ (rest ≠ [] → t.isDirectoryAt p.names = true) := by
  induction h with
  | start => exact ⟨hStart, fun _ => hDirectory⟩
  | name h hThere hNext ih => exact ⟨ih.1.follow hTree (ih.2 (by simp)) hThere, hNext⟩
  | wild h he hEntry hNext ih =>
    refine ⟨ih.1.enter hTree he hEntry, ?_⟩
    intro hRest
    rw [Place.enter, hEntry]
    exact hNext hRest
  | stay h ih => exact ⟨ih.1, fun _ => ih.2 (by simp)⟩
  | descend h he hEntry hContent ih =>
    refine ⟨ih.1.enter hTree he hEntry, ?_⟩
    intro _
    rw [Place.enter, FileTree.isDirectoryAt, hEntry, hTree.find?_eq _ he, hContent]
    rfl

theorem FileTree.Comes.root_eq (h : t.Comes parts start rest p) : p.path.root = start.path.root := by
  induction h with
  | start => rfl
  | name h hThere hNext ih =>
    rw [Place.follow]
    split
    · exact ih
    · exact ih
  | wild h he hEntry hNext ih => exact ih
  | stay h ih => exact ih
  | descend h he hEntry hContent ih => exact ih

/-- A path has no double dots where neither its start nor the pattern has them. -/
theorem FileTree.Comes.up_notMem (hTree : t.IsWellFormed) (hStart : ".." ∉ start.path.names)
    (hParts : .name ".." ∉ parts) (h : t.Comes parts start rest p) :
    ".." ∉ p.path.names ∧ .name ".." ∉ rest := by
  have hEntries : ∀ {p : Place} {below : List String} {e : List String × Content}, ".." ∉ p.path.names → e ∈ t.entries →
      p.names ++ below = e.1 → ".." ∉ (p.enter below).path.names := by
    intro p below e hPath he hEntry hUp
    rcases List.mem_append.mp hUp with hUp | hUp
    · exact hPath hUp
    · exact (hTree.isName e he ".." (hEntry ▸ List.mem_append_right p.names hUp)).ne_up rfl
  induction h with
  | start => exact ⟨hStart, hParts⟩
  | @name text rest p h hThere hNext ih =>
    obtain ⟨hPath, hRest⟩ := ih
    rw [List.mem_cons, not_or] at hRest
    have hText : ¬(text == "..") = true := by
      intro hUp
      exact hRest.1 (congrArg Part.name (beq_iff_eq.mp hUp).symm)
    rw [Place.follow, if_neg hText]
    refine ⟨?_, hRest.2⟩
    intro hUp
    rcases List.mem_append.mp hUp with hUp | hUp
    · exact hPath hUp
    · exact hText (beq_iff_eq.mpr (List.mem_singleton.mp hUp).symm)
  | wild h he hEntry hNext ih => exact ⟨hEntries ih.1 he hEntry, fun hUp => ih.2 (List.mem_cons_of_mem _ hUp)⟩
  | stay h ih => exact ⟨ih.1, fun hUp => ih.2 (List.mem_cons_of_mem _ hUp)⟩
  | descend h he hEntry hContent ih => exact ⟨hEntries ih.1 he hEntry, fun hUp => ih.2 (List.mem_cons_of_mem _ hUp)⟩

end

theorem name_mem_of_partsOf {pattern text : String} {parts : List Part} (h : partsOf pattern = .ok parts)
    (hName : .name text ∈ parts) : text ∈ (Path.ofText pattern).names := by
  rw [partsOf] at h
  split at h
  · cases h
  · split at h
    · cases h
    · obtain ⟨read, hRead, hResult⟩ := exists_of_bind_eq_ok h
      cases hResult
      rcases List.mem_append.mp hName with hName | hName
      · obtain ⟨name, hMem, hPart⟩ := exists_of_mem_of_mapM_eq_ok hRead _ hName
        rw [Part.ofText] at hPart
        split_ifs at hPart
        · cases hPart
        · cases hPart
        · cases hPart
          exact hMem
      · split at hName
        · cases List.mem_singleton.mp hName
        · cases hName

/-! ## Found files -/

def FileTree.Finds (t : FileTree) (p : Path) : Prop :=
  ∃ names, t.locate p = .ok names ∧ t.isFileAt names = true

theorem FileTree.finds_of_mem_globFrom (hTree : t.IsWellFormed) {base : Path} {pattern : String} {found : List Path}
    (h : t.globFrom base pattern = .ok found) :
    ∀ p ∈ found, t.Finds p ∧ p.root = base.root ∧
      (".." ∉ base.names → ".." ∉ (Path.ofText pattern).names → ".." ∉ p.names) := by
  intro p hp
  obtain ⟨parts, hParts, h⟩ := exists_of_bind_eq_ok h
  obtain ⟨isPresent, -, h⟩ := exists_of_bind_eq_ok h
  split at h
  · cases h
    cases hp
  · obtain ⟨names, hNames, h⟩ := exists_of_bind_eq_ok h
    split at h
    · cases h
      cases hp
    · next hDirectory =>
      obtain ⟨places, hPlaces, h⟩ := exists_of_bind_eq_ok h
      cases h
      obtain ⟨place, hFiltered, rfl⟩ := List.mem_map.mp hp
      obtain ⟨hPlace, hFile⟩ := List.mem_filter.mp hFiltered
      obtain ⟨hNull, -, hFollow⟩ := t.locate_eq_ok_iff.mp hNames
      obtain ⟨hLong, last, hComes⟩ := t.comes_of_mem_select hPlaces .start place hPlace
      have hLeads := (hComes.leads hTree ⟨hFollow, hNull⟩ (by simpa using hDirectory)).1
      refine ⟨⟨place.names, t.locate_eq_ok_iff.mpr ⟨hLeads.hasNull, ?_, hLeads.foldlM_follow⟩, hFile⟩, hComes.root_eq, ?_⟩
      · simpa [Place.isTooLong] using hLong
      · intro hBase hPattern
        exact (hComes.up_notMem hTree hBase fun hUp => hPattern (name_mem_of_partsOf hParts hUp)).1

structure FileTree.FindsBy (t : FileTree) (base : Path) (pattern : String) (p : Path) : Prop where
  finds : t.Finds p
  root_eq : p.root = (base.join (.ofText pattern)).root
  up_notMem : ".." ∉ (base.join (.ofText pattern)).names → ".." ∉ p.names

theorem FileTree.findsBy_of_mem_glob (hTree : t.IsWellFormed) {base : Path} {pattern : String} {found : List Path}
    (h : t.glob base pattern = .ok found) : ∀ p ∈ found, t.FindsBy base pattern p := by
  intro p hp
  rw [FileTree.glob] at h
  split at h
  · next hAbsolute =>
    -- From the root the pattern is followed without its slashes, which leaves its names as they are.
    have hNames : (Path.ofText (Path.text { names := (Path.ofText pattern).names })).names = (Path.ofText pattern).names :=
      Path.names_ofText_text (.inl rfl) fun name hName => isComponent_of_mem_ofText hName
    have hJoin : base.join (.ofText pattern) = .ofText pattern := if_pos hAbsolute
    obtain ⟨hFinds, hRoot, hUp⟩ := t.finds_of_mem_globFrom hTree h p hp
    rw [hNames] at hUp
    constructor
    · exact hFinds
    · rw [hJoin, hRoot]
    · rw [hJoin]
      exact hUp (by simp)
  · next hRelative =>
    have hJoin : base.join (.ofText pattern) = { base with names := base.names ++ (Path.ofText pattern).names } :=
      if_neg hRelative
    obtain ⟨hFinds, hRoot, hUp⟩ := t.finds_of_mem_globFrom hTree h p hp
    constructor
    · exact hFinds
    · rw [hJoin, hRoot]
    · rw [hJoin, List.mem_append, not_or]
      exact fun hNone => hUp hNone.1 hNone.2

theorem FileTree.findsBy_of_mem_globAll (hTree : t.IsWellFormed) {base : Path} {patterns : List String}
    {paths : List Path} (h : t.globAll base patterns = .ok paths) :
    ∀ p ∈ paths, ∃ pattern ∈ patterns, t.FindsBy base pattern p := by
  intro p hp
  obtain ⟨founds, hFounds, h⟩ := exists_of_bind_eq_ok h
  cases h
  rw [List.mem_mergeSort, List.mem_eraseDups, List.mem_flatten] at hp
  obtain ⟨found, hFound, hp⟩ := hp
  obtain ⟨pattern, hPattern, hGlob⟩ := exists_of_mem_of_mapM_eq_ok hFounds found hFound
  exact ⟨pattern, hPattern, t.findsBy_of_mem_glob hTree hGlob p hp⟩

theorem nodup_eraseDups {α : Type} [BEq α] [LawfulBEq α] (l : List α) : l.eraseDups.Nodup := by
  cases l with
  | nil => exact List.nodup_nil
  | cons a l =>
    rw [List.eraseDups_cons, List.nodup_cons]
    constructor
    · simp [List.mem_eraseDups]
    · exact nodup_eraseDups _
termination_by l.length
decreasing_by
  have hLength := List.length_filter_le (fun b => !b == a) l
  rw [List.length_cons]
  omega

theorem FileTree.nodup_of_globAll {base : Path} {patterns : List String} {paths : List Path}
    (h : t.globAll base patterns = .ok paths) : paths.Nodup := by
  obtain ⟨founds, -, h⟩ := exists_of_bind_eq_ok h
  cases h
  exact (List.mergeSort_perm _ _).nodup_iff.mpr (nodup_eraseDups _)

theorem FileTree.Finds.isResolved (hTree : t.IsWellFormed) {p : Path} (h : t.Finds p) :
    (t.workingDir.resolve p).IsResolved := by
  obtain ⟨names, hLocate, hFile⟩ := h
  refine ⟨rfl, ?_⟩
  rw [FileTree.names_resolve_of_locate hLocate]
  rw [FileTree.isFileAt] at hFile
  split at hFile
  · next bytes hContent =>
    have hNames : names ≠ [] := by
      rintro rfl
      cases hContent
    exact hTree.isName _ (FileTree.mem_of_find?_eq_some hNames hContent)
  · cases hFile

/-- Two paths that are resolved to one path lead to one file. -/
theorem FileTree.Finds.readText_eq {p q : Path} (hp : t.Finds p) (hq : t.Finds q)
    (h : t.workingDir.resolve p = t.workingDir.resolve q) : t.readText p = t.readText q := by
  obtain ⟨names, hLocate, -⟩ := hp
  obtain ⟨others, hOther, -⟩ := hq
  have hNames : names = others := by
    rw [← FileTree.names_resolve_of_locate hLocate, h, FileTree.names_resolve_of_locate hOther]
  rw [FileTree.readText, FileTree.readText, hLocate, hOther, hNames]

end

end ScenarioRunner.Files
