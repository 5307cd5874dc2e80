import Mathlib.Tactic.Common
import ScenarioRunner.Proofs.Files.Uri

/-!
# Where paths lead

Main statements: a path that can be followed leads to where it is resolved to, and paths from one root that have no double
dots are told apart by that.
-/

namespace ScenarioRunner.Files

set_option autoImplicit false

/-- Every entry stands for one thing, has a proper name, and is below directories only. -/
structure FileTree.IsWellFormed (t : FileTree) : Prop where
  find?_eq : ∀ e ∈ t.entries, t.find? e.1 = some e.2
  isName : ∀ e ∈ t.entries, ∀ name ∈ e.1, IsName name
  isDirectoryAt_take : ∀ e ∈ t.entries, ∀ n < e.1.length, t.isDirectoryAt (e.1.take n) = true

theorem FileTree.mem_of_find?_eq_some {t : FileTree} {names : List String} {content : Content} (hNames : names ≠ [])
    (h : t.find? names = some content) : (names, content) ∈ t.entries := by
  have hEmpty : ¬names.isEmpty = true := by simpa using hNames
  rw [FileTree.find?, if_neg hEmpty] at h
  obtain ⟨before, after, hEntries, -⟩ := List.lookup_eq_some_iff.mp h
  rw [hEntries]
  exact List.mem_append_right before List.mem_cons_self

theorem FileTree.isSome_find?_of_isDirectoryAt {t : FileTree} {names : List String} (h : t.isDirectoryAt names = true) :
    (t.find? names).isSome = true := by
  rw [beq_iff_eq.mp h]
  rfl

/-! ## Following a path -/

def FileTree.follow (t : FileTree) (here : List String) (name : String) : Except Fault (List String) :=
  if !t.isDirectoryAt here then .error (.file .notDirectory)
  else if name == ".." then .ok here.dropLast
  else if nameLimit < name.utf8ByteSize then .error (.file .nameTooLong)
  else if (t.find? (here ++ [name])).isSome then .ok (here ++ [name])
  else .error (.file .missing)

/-- Where a name leads by itself, whatever is there. -/
def resolveStep (done : List String) (name : String) : List String :=
  if name == ".." then done.dropLast else done ++ [name]

theorem names_resolve (workingDir p : Path) :
    (workingDir.resolve p).names = (workingDir.join p).names.foldl resolveStep [] := rfl

section

variable {t : FileTree}

theorem FileTree.locate_eq_ok_iff {p : Path} {names : List String} :
    t.locate p = .ok names ↔ p.hasNull = false ∧ p.text.utf8ByteSize ≤ pathLimit ∧
      (t.workingDir.join p).names.foldlM t.follow [] = .ok names := by
  have hLocate : t.locate p = if p.hasNull then .error .nullCharacter
      else if pathLimit < p.text.utf8ByteSize then .error (.file .nameTooLong)
      else (t.workingDir.join p).names.foldlM t.follow [] := rfl
  rw [hLocate]
  split
  · next hNull => simp [hNull]
  · next hNull =>
    split
    · next hLong =>
      simp
      omega
    · next hLong =>
      simp [hNull]
      omega

theorem FileTree.eq_of_follow {here there : List String} {name : String} (h : t.follow here name = .ok there) :
    there = resolveStep here name := by
  rw [FileTree.follow] at h
  split_ifs at h with hHere hUp hLong hThere
  · cases h
    rw [resolveStep, if_pos hUp]
  · cases h
    rw [resolveStep, if_neg hUp]

theorem names_eq_of_foldlM_follow {names here there : List String} (h : names.foldlM t.follow here = .ok there) :
    names.foldl resolveStep here = there := by
  induction names generalizing here with
  | nil =>
    cases h
    rfl
  | cons name names ih =>
    rw [List.foldlM_cons] at h
    obtain ⟨next, hNext, hRest⟩ := exists_of_bind_eq_ok h
    rw [List.foldl_cons, ← FileTree.eq_of_follow hNext]
    exact ih hRest

/-- A path that can be followed is resolved to the place where it leads. -/
theorem FileTree.names_resolve_of_locate {p : Path} {names : List String} (h : t.locate p = .ok names) :
    (t.workingDir.resolve p).names = names := by
  rw [names_resolve]
  exact names_eq_of_foldlM_follow (t.locate_eq_ok_iff.mp h).2.2

theorem FileTree.IsWellFormed.follow_name (hTree : t.IsWellFormed) {here : List String} {name : String}
    (hHere : t.isDirectoryAt here = true) (hThere : (t.find? (here ++ [name])).isSome = true) :
    t.follow here name = .ok (here ++ [name]) := by
  obtain ⟨content, hContent⟩ := Option.isSome_iff_exists.mp hThere
  have hName := hTree.isName _ (FileTree.mem_of_find?_eq_some (by simp) hContent) name (by simp)
  have hSize := hName.size_le
  rw [FileTree.follow, hHere, if_neg (by simp), if_neg (by simpa using hName.ne_up), if_neg (by omega), if_pos hThere]

theorem FileTree.follow_up {here : List String} (h : t.isDirectoryAt here = true) :
    t.follow here ".." = .ok here.dropLast := by
  rw [FileTree.follow, h]
  rfl

/-- From a directory above an entry its further names lead to it. -/
theorem FileTree.IsWellFormed.foldlM_follow (hTree : t.IsWellFormed) {e : List String × Content} (he : e ∈ t.entries)
    {here below : List String} (h : here ++ below = e.1) : below.foldlM t.follow here = .ok e.1 := by
  induction below generalizing here with
  | nil =>
    rw [List.append_nil] at h
    rw [h]
    rfl
  | cons name below ih =>
    have hNext : here ++ [name] ++ below = e.1 := by rw [List.append_assoc, List.singleton_append, h]
    have hLength := congrArg List.length hNext
    simp only [List.length_append, List.length_cons, List.length_nil] at hLength
    have hHere : t.isDirectoryAt here = true := by
      have hTake := hTree.isDirectoryAt_take e he here.length (by omega)
      rwa [← h, List.take_left] at hTake
    have hThere : (t.find? (here ++ [name])).isSome = true := by
      cases below with
      | nil =>
        rw [List.append_nil] at hNext
        rw [hNext, hTree.find?_eq e he]
        rfl
      | cons next below =>
        have hTake := hTree.isDirectoryAt_take e he (here ++ [name]).length (by simp at hLength ⊢; omega)
        rw [← hNext, List.take_left] at hTake
        exact FileTree.isSome_find?_of_isDirectoryAt hTake
    rw [List.foldlM_cons, hTree.follow_name hHere hThere]
    exact ih hNext

end

/-! ## Resolved paths -/

theorem names_join_append (workingDir p : Path) (below : List String) :
    (workingDir.join { p with names := p.names ++ below }).names = (workingDir.join p).names ++ below := by
  rw [Path.join, Path.join]
  split
  · next hAbsolute => rw [if_pos (show p.isAbsolute = true from hAbsolute)]
  · next hAbsolute => rw [if_neg (show ¬p.isAbsolute = true from hAbsolute), List.append_assoc]

theorem foldl_resolveStep_of_up_notMem {names : List String} (done : List String) (h : ".." ∉ names) :
    names.foldl resolveStep done = done ++ names := by
  induction names generalizing done with
  | nil => rw [List.foldl_nil, List.append_nil]
  | cons name names ih =>
    rw [List.mem_cons, not_or] at h
    have hName : ¬(name == "..") = true := fun hUp => h.1 (beq_iff_eq.mp hUp).symm
    rw [List.foldl_cons, resolveStep, if_neg hName, ih _ h.2, List.append_assoc, List.singleton_append]

/-- Without double dots resolving a path only puts the directory before it where it starts. -/
theorem names_resolve_of_up_notMem (workingDir : Path) {p : Path} (h : ".." ∉ p.names) :
    (workingDir.resolve p).names = (workingDir.resolve { p with names := [] }).names ++ p.names := by
  have hJoin := names_join_append workingDir { p with names := [] } p.names
  rw [List.nil_append] at hJoin
  rw [names_resolve, names_resolve, hJoin, List.foldl_append, foldl_resolveStep_of_up_notMem _ h]

theorem eq_of_resolve_eq {workingDir p q : Path} (hRoot : p.root = q.root) (hp : ".." ∉ p.names) (hq : ".." ∉ q.names)
    (h : workingDir.resolve p = workingDir.resolve q) : p = q := by
  have hNames := congrArg Path.names h
  rw [names_resolve_of_up_notMem workingDir hp, names_resolve_of_up_notMem workingDir hq, hRoot] at hNames
  have hSame := List.append_cancel_left hNames
  cases p
  cases q
  cases hRoot
  cases hSame
  rfl

end ScenarioRunner.Files
