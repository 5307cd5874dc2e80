import Mathlib.Tactic.Common
import ScenarioRunner.Proofs.Files.Location

/-!
# Written files

What stays of a tree when a directory is made in it or a file is written. Main statement: a file that was written holds
its bytes, and no other file has changed.
-/

namespace ScenarioRunner.Files

set_option autoImplicit false

section

variable {t t' t'' : FileTree} {p q : Path}

structure FileTree.Holds (t : FileTree) (p : Path) (names : List String) (bytes : List UInt8) : Prop where
  locate_eq : t.locate p = .ok names
  find?_eq : t.find? names = some (.file bytes)

/-! ## What stays -/

/-- What is there stays there, and directories stay directories. -/
structure FileTree.Keeps (t t' : FileTree) : Prop where
  workingDir_eq : t'.workingDir = t.workingDir
  isSome_find? : ∀ names, (t.find? names).isSome = true → (t'.find? names).isSome = true
  isDirectoryAt : ∀ names, t.isDirectoryAt names = true → t'.isDirectoryAt names = true

theorem FileTree.Keeps.follow (h : t.Keeps t') {here there : List String} {name : String}
    (hFollow : t.follow here name = .ok there) : t'.follow here name = .ok there := by
  rw [FileTree.follow] at hFollow ⊢
  split_ifs at hFollow with hHere hUp hLong hThere
  · rw [if_neg (by simpa using h.isDirectoryAt here (by simpa using hHere)), if_pos hUp]
    exact hFollow
  · rw [if_neg (by simpa using h.isDirectoryAt here (by simpa using hHere)), if_neg hUp, if_neg hLong,
      if_pos (h.isSome_find? _ hThere)]
    exact hFollow

theorem FileTree.Keeps.foldlM_follow (h : t.Keeps t') {names here there : List String}
    (hFollow : names.foldlM t.follow here = .ok there) : names.foldlM t'.follow here = .ok there := by
  induction names generalizing here with
  | nil => exact hFollow
  | cons name names ih =>
    rw [List.foldlM_cons] at hFollow ⊢
    obtain ⟨next, hNext, hRest⟩ := exists_of_bind_eq_ok hFollow
    rw [h.follow hNext]
    exact ih hRest

theorem FileTree.Keeps.locate (h : t.Keeps t') {names : List String} (hLocate : t.locate p = .ok names) :
    t'.locate p = .ok names := by
  rw [FileTree.locate_eq_ok_iff] at hLocate ⊢
  obtain ⟨hNull, hLong, hFollow⟩ := hLocate
  refine ⟨hNull, hLong, ?_⟩
  rw [h.workingDir_eq]
  exact h.foldlM_follow hFollow

structure FileTree.Grows (t t' : FileTree) : Prop where
  workingDir_eq : t'.workingDir = t.workingDir
  find?_eq : ∀ names content, t.find? names = some content → t'.find? names = some content

theorem FileTree.Grows.refl (t : FileTree) : t.Grows t :=
  ⟨rfl, fun _ _ h => h⟩

theorem FileTree.Grows.trans (h : t.Grows t') (h' : t'.Grows t'') : t.Grows t'' :=
  ⟨h'.workingDir_eq.trans h.workingDir_eq, fun names content hFind =>
    h'.find?_eq names content (h.find?_eq names content hFind)⟩

theorem FileTree.Grows.keeps (h : t.Grows t') : t.Keeps t' where
  workingDir_eq := h.workingDir_eq
  isSome_find? names hSome := by
    obtain ⟨content, hContent⟩ := Option.isSome_iff_exists.mp hSome
    rw [h.find?_eq names content hContent]
    rfl
  isDirectoryAt names hDirectory := beq_iff_eq.mpr (h.find?_eq names .directory (beq_iff_eq.mp hDirectory))

theorem FileTree.Grows.holds (h : t.Grows t') {names : List String} {bytes : List UInt8}
    (hHolds : t.Holds p names bytes) : t'.Holds p names bytes :=
  ⟨h.keeps.locate hHolds.locate_eq, h.find?_eq _ _ hHolds.find?_eq⟩

/-! ## Making a directory -/

theorem lookup_addDirectory {entries : List (List String × Content)} {dir names : List String} {content : Content}
    (h : entries.lookup names = some content) : (addDirectory entries dir).lookup names = some content := by
  rw [addDirectory]
  split
  · exact h
  · rw [List.lookup_append, h]
    rfl

theorem FileTree.grows_addDirectory (t : FileTree) (dir : List String) :
    t.Grows { t with entries := addDirectory t.entries dir } where
  workingDir_eq := rfl
  find?_eq names content hFind := by
    rw [FileTree.find?] at hFind ⊢
    split
    · next hEmpty => rwa [if_pos hEmpty] at hFind
    · next hEmpty =>
      rw [if_neg hEmpty] at hFind
      exact lookup_addDirectory hFind

theorem FileTree.grows_addDirectoryAt (h : t.addDirectoryAt p = .ok t') : t.Grows t' := by
  rw [FileTree.addDirectoryAt] at h
  split at h
  · split at h
    · cases h
      exact Grows.refl t
    · cases h
  · obtain ⟨above, _, hAdded⟩ := exists_of_bind_eq_ok h
    cases hAdded
    exact t.grows_addDirectory _
  · cases h

theorem FileTree.grows_makeDirectory (h : t.makeDirectory p = .ok t') : t.Grows t' := by
  induction hSize : p.names.length generalizing p t' with
  | zero =>
    rw [FileTree.makeDirectory] at h
    split at h
    · rw [dif_pos (List.length_eq_zero_iff.mp hSize)] at h
      cases h
    · exact grows_addDirectoryAt h
  | succ n ih =>
    rw [FileTree.makeDirectory] at h
    split at h
    · split at h
      · cases h
      · obtain ⟨below, hBelow, hAdded⟩ := exists_of_bind_eq_ok h
        have hParent : p.parent.names.length = n := by
          rw [Path.parent, List.length_dropLast, hSize]
          omega
        exact (ih hBelow hParent).trans (grows_addDirectoryAt hAdded)
    · exact grows_addDirectoryAt h

/-! ## Writing a file -/

theorem lookup_setEntry (entries : List (List String × Content)) (names other : List String) (content : Content) :
    (setEntry entries names content).lookup other = if other = names then some content else entries.lookup other := by
  induction entries with
  | nil =>
    rw [setEntry, List.lookup_cons, List.lookup_nil]
    split
    · next h => rw [if_pos (beq_iff_eq.mp h)]
    · next h => rw [if_neg (beq_eq_false_iff_ne.mp h)]
  | cons entry entries ih =>
    obtain ⟨first, old⟩ := entry
    rw [setEntry]
    split_ifs with hFirst hOther hOther
    · rw [List.lookup_cons, beq_iff_eq.mpr hOther]
    · rw [List.lookup_cons, List.lookup_cons, hFirst, beq_eq_false_iff_ne.mpr hOther]
    · have hNe : (other == first) = false := beq_eq_false_iff_ne.mpr fun hSame => hFirst (hSame.symm.trans hOther)
      rw [List.lookup_cons, hNe]
      exact ih.trans (if_pos hOther)
    · rw [List.lookup_cons, List.lookup_cons, ih, if_neg hOther]

def FileTree.withFile (t : FileTree) (names : List String) (bytes : List UInt8) : FileTree :=
  { t with entries := setEntry t.entries names (.file bytes) }

theorem FileTree.find?_withFile {names : List String} (hNames : names ≠ []) (bytes : List UInt8) (other : List String) :
    (t.withFile names bytes).find? other = if other = names then some (.file bytes) else t.find? other := by
  rw [FileTree.find?, FileTree.withFile, lookup_setEntry]
  split_ifs with hEmpty hOther hOther
  · rw [hOther] at hEmpty
    exact absurd (List.isEmpty_iff.mp hEmpty) hNames
  · rw [FileTree.find?, if_pos hEmpty]
  · rfl
  · rw [FileTree.find?, if_neg hEmpty]

theorem FileTree.keeps_withFile {names : List String} (hNames : names ≠ []) (hFree : t.isDirectoryAt names = false)
    (bytes : List UInt8) : t.Keeps (t.withFile names bytes) where
  workingDir_eq := rfl
  isSome_find? other hOther := by
    rw [FileTree.find?_withFile hNames]
    split
    · rfl
    · exact hOther
  isDirectoryAt other hOther := by
    have hNe : other ≠ names := by
      rintro rfl
      rw [hFree] at hOther
      cases hOther
    rwa [FileTree.isDirectoryAt, FileTree.find?_withFile hNames, if_neg hNe]

theorem Path.names_join_of_concat {above : List String} {last : String} (h : p.names = above ++ [last])
    (workingDir : Path) : (workingDir.join p).names = (workingDir.join p.parent).names ++ [last] := by
  have hRoot : p.parent.isAbsolute = p.isAbsolute := rfl
  have hAbove : p.parent.names = above := by rw [Path.parent, h, List.dropLast_concat]
  rw [Path.join, Path.join, hRoot]
  split
  · rw [hAbove, h]
  · rw [hAbove, h, List.append_assoc]

theorem FileTree.eq_concat_of_locate {above names : List String} {last : String} (hPath : p.names = above ++ [last])
    (hUp : last ≠ "..") (h : t.locate p = .ok names) : ∃ here, names = here ++ [last] := by
  have hResolved := FileTree.names_resolve_of_locate h
  rw [names_resolve, Path.names_join_of_concat hPath, List.foldl_append, List.foldl_cons,
    List.foldl_nil, resolveStep, if_neg (by simpa using hUp)] at hResolved
  exact ⟨_, hResolved.symm⟩

/-- A path leads where its last name leads from the directory above. -/
theorem FileTree.locate_of_parent {above here : List String} {last : String} (hPath : p.names = above ++ [last])
    (hParent : t.locate p.parent = .ok here) :
    t.locate p = if p.hasNull then .error .nullCharacter
      else if pathLimit < p.text.utf8ByteSize then .error (.file .nameTooLong) else t.follow here last := by
  have hLast : [last].foldlM t.follow here = t.follow here last := by
    rw [List.foldlM_cons]
    exact bind_pure _
  have hFollow : (t.workingDir.join p).names.foldlM t.follow [] = t.follow here last := by
    rw [Path.names_join_of_concat hPath, List.foldlM_append, (t.locate_eq_ok_iff.mp hParent).2.2]
    exact hLast
  rw [← hFollow]
  rfl

theorem FileTree.of_follow_missing {here : List String} {name : String}
    (h : t.follow here name = .error (.file .missing)) :
    t.isDirectoryAt here = true ∧ name.utf8ByteSize ≤ nameLimit ∧ t.find? (here ++ [name]) = none := by
  rw [FileTree.follow] at h
  split at h
  · cases h
  · next hHere =>
    split at h
    · cases h
    · split at h
      · cases h
      · next hLong =>
        split at h
        · cases h
        · next hThere => exact ⟨by simpa using hHere, Nat.not_lt.mp hLong, Option.not_isSome_iff_eq_none.mp hThere⟩

theorem FileTree.of_locate_missing {above here : List String} {last : String} (hPath : p.names = above ++ [last])
    (hParent : t.locate p.parent = .ok here) (h : t.locate p = .error (.file .missing)) :
    p.hasNull = false ∧ p.text.utf8ByteSize ≤ pathLimit ∧ t.follow here last = .error (.file .missing) := by
  rw [FileTree.locate_of_parent hPath hParent] at h
  split at h
  · cases h
  · next hNull =>
    split at h
    · cases h
    · next hLong => exact ⟨Bool.eq_false_iff.mpr hNull, Nat.not_lt.mp hLong, h⟩

theorem FileTree.holds_withFile {here : List String} {last : String} {bytes : List UInt8}
    (hFree : t.isDirectoryAt (here ++ [last]) = false)
    (hLocate : (t.withFile (here ++ [last]) bytes).locate p = .ok (here ++ [last])) :
    (t.withFile (here ++ [last]) bytes).Holds p (here ++ [last]) bytes ∧
      t.Keeps (t.withFile (here ++ [last]) bytes) ∧
      ∀ other, other ≠ here ++ [last] → (t.withFile (here ++ [last]) bytes).find? other = t.find? other := by
  refine ⟨⟨hLocate, ?_⟩, FileTree.keeps_withFile (by simp) hFree bytes, fun other hOther => ?_⟩
  · rw [FileTree.find?_withFile (by simp), if_pos rfl]
  · rw [FileTree.find?_withFile (by simp), if_neg hOther]

theorem FileTree.holds_writeFile {above : List String} {last : String} {bytes : List UInt8}
    (hPath : p.names = above ++ [last]) (hUp : last ≠ "..") (h : t.writeFile p bytes = .ok t') :
    ∃ here, t'.Holds p (here ++ [last]) bytes ∧ t.Keeps t' ∧
      ∀ other, other ≠ here ++ [last] → t'.find? other = t.find? other := by
  rw [FileTree.writeFile] at h
  split at h
  · next names hLocate =>
    split at h
    · cases h
    · next hDirectory =>
      cases h
      obtain ⟨here, rfl⟩ := FileTree.eq_concat_of_locate hPath hUp hLocate
      have hFree := Bool.eq_false_iff.mpr hDirectory
      exact ⟨here, FileTree.holds_withFile hFree ((FileTree.keeps_withFile (by simp) hFree bytes).locate hLocate)⟩
  · next hMissing =>
    -- The file is new. Its directory is there, so the path leads to it as soon as it is written.
    obtain ⟨here, hParent, hWritten⟩ := exists_of_bind_eq_ok h
    cases hWritten
    have hDrop : p.names.drop (p.names.length - 1) = [last] := by
      rw [hPath, List.length_append, List.length_singleton, Nat.add_sub_cancel, List.drop_left]
    obtain ⟨hNull, hLong, hFollow⟩ := FileTree.of_locate_missing hPath hParent hMissing
    obtain ⟨hHere, hName, hNone⟩ := FileTree.of_follow_missing hFollow
    have hFree : t.isDirectoryAt (here ++ [last]) = false := by
      rw [FileTree.isDirectoryAt, hNone]
      rfl
    have hKeeps := FileTree.keeps_withFile (t := t) (by simp) hFree bytes
    have hThere : (t.withFile (here ++ [last]) bytes).follow here last = .ok (here ++ [last]) := by
      rw [FileTree.follow, hKeeps.isDirectoryAt here hHere, if_neg (by simp), if_neg (by simpa using hUp),
        if_neg (Nat.not_lt.mpr hName), if_pos]
      rw [FileTree.find?_withFile (by simp), if_pos rfl]
      rfl
    have hLocate : (t.withFile (here ++ [last]) bytes).locate p = .ok (here ++ [last]) := by
      rw [FileTree.locate_of_parent hPath (hKeeps.locate hParent), if_neg (Bool.eq_false_iff.mp hNull),
        if_neg (Nat.not_lt.mpr hLong), hThere]
    rw [hDrop]
    exact ⟨here, FileTree.holds_withFile hFree hLocate⟩
  · cases h

end

end ScenarioRunner.Files
