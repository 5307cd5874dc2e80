import Mathlib.Data.List.Nodup
import Mathlib.Tactic.Common
import ScenarioRunner.Console.Logger

/-!
# The levels of loggers

Loggers are set up and levels are changed by calls in any order. Main statement: a logger that has been set up has one
handler for good and is not set up again, and its level is that of its first set-up or, if its name begins as the names
of the program do, that of the last change since then.
-/

namespace ScenarioRunner.Console

open ScenarioRunner.Text

set_option autoImplicit false

/-! ## Calls -/

inductive Call where
  | setUp (name : String) (level : Int)
  | setLevel (level : Int)
deriving DecidableEq

def Call.run (r : Registry) : Call → Registry
  | .setUp name level => (r.setUp name level).1
  | .setLevel level => r.setLevel level

def afterCalls (calls : List Call) : Registry :=
  calls.foldl Call.run {}

def Call.newLevel? : Call → Option Int
  | .setUp _ _ => none
  | .setLevel level => some level

def lastLevel? (calls : List Call) : Option Int :=
  (calls.filterMap Call.newLevel?).getLast?

def IsProgramName (name : String) : Prop :=
  programPrefix.toList <+: name.toList

instance (name : String) : Decidable (IsProgramName name) :=
  inferInstanceAs (Decidable (_ <+: _))

def Logger.changed (level : Int) (l : Logger) : Logger :=
  if IsProgramName l.name then { l with level } else l

/-- The logger but for its place below another one. -/
def Logger.unplaced (l : Logger) : Logger :=
  { l with parent := rootName }

structure Logger.IsReady (l : Logger) : Prop where
  handlers : l.handlers = 1
  propagates : l.propagates = false
  notRoot : isRootName l.name = false

/-- What every call keeps: the loggers have names of their own and are set up. -/
structure Registry.IsTidy (r : Registry) : Prop where
  names : (r.loggers.map Logger.name).Nodup
  ready : ∀ l ∈ r.loggers, l.IsReady
  root : r.root.name = rootName

theorem isRootName_eq_false_iff (name : String) : isRootName name = false ↔ name ≠ "" ∧ name ≠ rootName := by
  simp [isRootName]

theorem isSome_after?_iff (name : String) :
    (after? programPrefix.toList name.toList).isSome = true ↔ IsProgramName name := by
  rw [Option.isSome_iff_exists, IsProgramName, List.IsPrefix]
  exact exists_congr fun rest => (after?_eq_some_iff _ _ rest).trans eq_comm

@[simp] theorem Logger.name_changed (level : Int) (l : Logger) : (l.changed level).name = l.name := by
  rw [Logger.changed]
  split
  · rfl
  · rfl

theorem Logger.IsReady.changed {l : Logger} (h : l.IsReady) (level : Int) : (l.changed level).IsReady := by
  rw [Logger.changed]
  split
  · exact ⟨h.handlers, h.propagates, h.notRoot⟩
  · exact h

theorem Registry.setLevel_eq (r : Registry) (level : Int) :
    r.setLevel level = { r with loggers := r.loggers.map (Logger.changed level) } := by
  have hChanged : (fun l : Logger => if (after? programPrefix.toList l.name.toList).isSome = true then { l with level }
      else l) = Logger.changed level := by
    funext l
    rw [Logger.changed]
    exact if_congr (isSome_after?_iff l.name) rfl rfl
  rw [Registry.setLevel, hChanged]

theorem Logger.adopt_eq (new l : Logger) : ∃ parent, new.adopt l = { l with parent } := by
  rw [Logger.adopt]
  split
  · exact ⟨new.name, rfl⟩
  · exact ⟨l.parent, rfl⟩

@[simp] theorem Logger.name_adopt (new l : Logger) : (new.adopt l).name = l.name := by
  obtain ⟨parent, hAdopt⟩ := new.adopt_eq l
  rw [hAdopt]

@[simp] theorem Logger.unplaced_adopt (new l : Logger) : (new.adopt l).unplaced = l.unplaced := by
  obtain ⟨parent, hAdopt⟩ := new.adopt_eq l
  rw [hAdopt]
  rfl

theorem Logger.IsReady.adopt {l : Logger} (h : l.IsReady) (new : Logger) : (new.adopt l).IsReady := by
  obtain ⟨parent, hAdopt⟩ := new.adopt_eq l
  rw [hAdopt]
  exact ⟨h.handlers, h.propagates, h.notRoot⟩

section

variable {r : Registry} {name : String}

/-! ## Loggers by their names -/

theorem Registry.find?_eq (h : isRootName name = false) :
    r.find? name = r.loggers.find? fun l => l.name == name := by
  rw [Registry.find?, h]
  rfl

theorem Registry.mem_of_find? {l : Logger} (h : isRootName name = false) (hFound : r.find? name = some l) :
    l ∈ r.loggers ∧ l.name = name := by
  rw [Registry.find?_eq h] at hFound
  exact ⟨List.mem_of_find?_eq_some hFound, by simpa using List.find?_some hFound⟩

theorem Registry.name_ne_of_find? (h : isRootName name = false) (hNone : r.find? name = none) :
    ∀ l ∈ r.loggers, l.name ≠ name := by
  rw [Registry.find?_eq h, List.find?_eq_none] at hNone
  exact fun l hl => by simpa using hNone l hl

theorem find?_map_of_name {f : Logger → Logger} (h : ∀ l, (f l).name = l.name) (loggers : List Logger) :
    (loggers.map f).find? (fun l => l.name == name) = (loggers.find? fun l => l.name == name).map f := by
  rw [List.find?_map]
  congr 2
  funext l
  rw [Function.comp_apply, h]

theorem putLogger_eq_self {loggers : List Logger} {logger : Logger}
    (h : ∀ l ∈ loggers, l.name = logger.name → l = logger) : putLogger loggers logger = loggers := by
  refine (List.map_congr_left fun l hl => ?_).trans (List.map_id loggers)
  split
  · next hName => exact (h l hl hName).symm
  · rfl

theorem Registry.IsTidy.map (h : r.IsTidy) {f : Logger → Logger} (hName : ∀ l, (f l).name = l.name)
    (hReady : ∀ l, l.IsReady → (f l).IsReady) : ({ r with loggers := r.loggers.map f } : Registry).IsTidy := by
  refine ⟨?_, ?_, h.root⟩
  · rw [List.map_map, show Logger.name ∘ f = Logger.name from funext hName]
    exact h.names
  · intro l hl
    obtain ⟨m, hm, rfl⟩ := List.mem_map.mp hl
    exact hReady m (h.ready m hm)

theorem Registry.IsTidy.append (h : r.IsTidy) {l : Logger} (hReady : l.IsReady)
    (hNew : ∀ m ∈ r.loggers, m.name ≠ l.name) : ({ r with loggers := r.loggers ++ [l] } : Registry).IsTidy := by
  refine ⟨?_, ?_, h.root⟩
  · rw [List.map_append, List.map_singleton, ← List.concat_eq_append, List.nodup_concat]
    refine ⟨?_, h.names⟩
    rw [List.mem_map]
    rintro ⟨m, hm, hSame⟩
    exact hNew m hm hSame
  · intro m hm
    rcases List.mem_append.mp hm with hm | hm
    · exact h.ready m hm
    · rwa [List.mem_singleton.mp hm]

/-! ## Setting up -/

theorem Registry.IsTidy.setUp_of_some (h : r.IsTidy) (hName : isRootName name = false) {l : Logger}
    (hFound : r.find? name = some l) (level : Int) : r.setUp name level = (r, l) := by
  obtain ⟨hMem, -⟩ := Registry.mem_of_find? hName hFound
  have hReady := h.ready l hMem
  have hOwn : l.setUp level = l := by
    rw [Logger.setUp, hReady.handlers]
    rfl
  have hLoggers : putLogger r.loggers l = r.loggers :=
    putLogger_eq_self fun m hm hSame => List.inj_on_of_nodup_map h.names hm hMem hSame
  have hPut : r.put l = r := by
    rw [Registry.put, hReady.notRoot, hLoggers]
    rfl
  simp only [Registry.setUp, hFound, Option.isSome_some, if_true, Option.getD_some, hOwn, hPut]

/-- A new logger is put behind the others, of which some get a new parent. -/
theorem Registry.setUp_of_none (hName : isRootName name = false) (hNone : r.find? name = none) (level : Int) :
    ∃ parent, r.setUp name level =
      ({ r with loggers := r.loggers.map (Logger.adopt { name }) ++ [⟨name, level, 1, false, parent⟩] },
        ⟨name, level, 1, false, parent⟩) := by
  let new : Logger := ⟨name, level, 1, false, r.parentOf { name }⟩
  have hOthers := Registry.name_ne_of_find? hName hNone
  have hFound : (r.add name).find? name = some { name, parent := r.parentOf { name } } := by
    rw [Registry.find?_eq hName, Registry.add, List.find?_append, List.find?_eq_none.mpr]
    · simp
    · simpa using hOthers
  have hSetUp : r.setUp name level = ((r.add name).put new, new) := by
    simp only [Registry.setUp, hNone, Option.isSome_none, Bool.false_eq_true, if_false, hFound, Option.getD_some,
      Logger.setUp, if_true, new]
  have hLoggers : putLogger (r.loggers.map (Logger.adopt { name })) new = r.loggers.map (Logger.adopt { name }) := by
    apply putLogger_eq_self
    intro l hl hSame
    obtain ⟨m, hm, rfl⟩ := List.mem_map.mp hl
    rw [Logger.name_adopt] at hSame
    exact absurd hSame (hOthers m hm)
  have hPut : putLogger (r.add name).loggers new = r.loggers.map (Logger.adopt { name }) ++ [new] := by
    rw [putLogger, Registry.add, List.map_append, ← putLogger, hLoggers, List.map_singleton, if_pos rfl]
  refine ⟨r.parentOf { name }, ?_⟩
  rw [hSetUp, Registry.put, hName, hPut]
  rfl

/-- The root is set up apart from the loggers. -/
theorem Registry.IsTidy.setUp_root (h : r.IsTidy) (hName : isRootName name = true) (level : Int) :
    ∃ root, (r.setUp name level).1 = { r with root } ∧ root.name = rootName := by
  have hFound : r.find? name = some r.root := by rw [Registry.find?, if_pos hName]
  have hOwn : (r.root.setUp level).name = rootName := by
    rw [Logger.setUp]
    split
    · exact h.root
    · exact h.root
  have hRoot : isRootName (r.root.setUp level).name = true := by
    rw [hOwn]
    rfl
  refine ⟨r.root.setUp level, ?_, hOwn⟩
  simp only [Registry.setUp, hFound, Option.isSome_some, if_true, Option.getD_some, Registry.put, hRoot]

/-! ## Steps and runs -/

theorem Registry.IsTidy.run (h : r.IsTidy) (call : Call) : (call.run r).IsTidy := by
  cases call with
  | setLevel level =>
    rw [Call.run, Registry.setLevel_eq]
    exact h.map (Logger.name_changed level) fun l hl => hl.changed level
  | setUp name level =>
    rw [Call.run]
    cases hName : isRootName name with
    | true =>
      obtain ⟨root, hRun, hRoot⟩ := h.setUp_root hName level
      rw [hRun]
      exact ⟨h.names, h.ready, hRoot⟩
    | false =>
      cases hFound : r.find? name with
      | some l =>
        rw [h.setUp_of_some hName hFound]
        exact h
      | none =>
        obtain ⟨parent, hRun⟩ := Registry.setUp_of_none hName hFound level
        rw [hRun]
        refine (h.map (Logger.name_adopt { name }) fun l hl => hl.adopt { name }).append ⟨rfl, rfl, hName⟩ ?_
        intro l hl
        obtain ⟨m, hm, rfl⟩ := List.mem_map.mp hl
        rw [Logger.name_adopt]
        exact Registry.name_ne_of_find? hName hFound m hm

theorem Registry.IsTidy.foldl_run (h : r.IsTidy) (calls : List Call) : (calls.foldl Call.run r).IsTidy := by
  induction calls generalizing r with
  | nil => exact h
  | cons call calls ih => exact ih (h.run call)

theorem isTidy_empty : Registry.IsTidy {} :=
  ⟨List.nodup_nil, fun _ hl => absurd hl List.not_mem_nil, rfl⟩

/-- Setting up a logger changes no other one but for its place. -/
theorem Registry.IsTidy.find?_setUp_of_ne (h : r.IsTidy) (hName : isRootName name = false) {other : String}
    (hOther : other ≠ name) (level : Int) :
    ((r.setUp other level).1.find? name).map Logger.unplaced = (r.find? name).map Logger.unplaced := by
  cases hRoot : isRootName other with
  | true =>
    obtain ⟨root, hRun, -⟩ := h.setUp_root hRoot level
    rw [hRun, Registry.find?_eq hName, Registry.find?_eq hName]
  | false =>
    cases hFound : r.find? other with
    | some l => rw [h.setUp_of_some hRoot hFound]
    | none =>
      obtain ⟨parent, hRun⟩ := Registry.setUp_of_none hRoot hFound level
      have hUnplaced : Logger.unplaced ∘ Logger.adopt { name := other } = Logger.unplaced :=
        funext (Logger.unplaced_adopt { name := other })
      rw [hRun, Registry.find?_eq hName, Registry.find?_eq hName, List.find?_append, find?_map_of_name (Logger.name_adopt _)]
      rw [List.find?_cons_of_neg (by simpa using hOther), List.find?_nil, Option.or_none, Option.map_map, hUnplaced]

theorem Registry.find?_setLevel (hName : isRootName name = false) (level : Int) :
    (r.setLevel level).find? name = (r.find? name).map (Logger.changed level) := by
  rw [Registry.setLevel_eq, Registry.find?_eq hName, Registry.find?_eq hName]
  exact find?_map_of_name (Logger.name_changed level) r.loggers

theorem Registry.IsTidy.find?_foldl_run_eq_none (h : r.IsTidy) (hName : isRootName name = false) {calls : List Call}
    (hCalls : ∀ level, .setUp name level ∉ calls) (hNone : r.find? name = none) :
    (calls.foldl Call.run r).find? name = none := by
  induction calls generalizing r with
  | nil => exact hNone
  | cons call calls ih =>
    refine ih (h.run call) (fun level hMem => hCalls level (List.mem_cons_of_mem call hMem)) ?_
    cases call with
    | setLevel level => rw [Call.run, Registry.find?_setLevel hName, hNone, Option.map_none]
    | setUp other level =>
      have hOther : other ≠ name := by
        rintro rfl
        exact hCalls level List.mem_cons_self
      have hSame := h.find?_setUp_of_ne hName hOther level
      rw [hNone, Option.map_none, Option.map_eq_none_iff] at hSame
      exact hSame

/-- Of the calls that follow, only changes of levels reach a logger, if they reach it at all. -/
theorem Registry.IsTidy.find?_run (h : r.IsTidy) (hName : isRootName name = false) {l : Logger}
    (hFound : r.find? name = some l) (call : Call) :
    ∃ m, (call.run r).find? name = some m ∧
      m.level = if IsProgramName name then call.newLevel?.getD l.level else l.level := by
  cases call with
  | setLevel level =>
    obtain ⟨-, rfl⟩ := Registry.mem_of_find? hName hFound
    refine ⟨l.changed level, ?_, ?_⟩
    · rw [Call.run, Registry.find?_setLevel hName, hFound, Option.map_some]
    · rw [Logger.changed, apply_ite Logger.level]
      rfl
  | setUp other level =>
    rw [Call.newLevel?, Option.getD_none, ite_self, Call.run]
    by_cases hOther : other = name
    · rw [hOther, h.setUp_of_some hName hFound]
      exact ⟨l, hFound, rfl⟩
    · have hSame := h.find?_setUp_of_ne hName hOther level
      rw [hFound, Option.map_some] at hSame
      obtain ⟨m, hm, hUnplaced⟩ := Option.map_eq_some_iff.mp hSame
      have hLevel : m.unplaced.level = l.unplaced.level := by rw [hUnplaced]
      exact ⟨m, hm, hLevel⟩

theorem lastLevel?_cons (call : Call) (calls : List Call) :
    lastLevel? (call :: calls) = (lastLevel? calls).or call.newLevel? := by
  rw [lastLevel?, lastLevel?]
  cases call with
  | setUp name level => rw [List.filterMap_cons_none rfl, Call.newLevel?, Option.or_none]
  | setLevel level =>
    rw [List.filterMap_cons_some (show Call.newLevel? (.setLevel level) = some level from rfl), List.getLast?_cons]
    cases (calls.filterMap Call.newLevel?).getLast? with
    | none => rfl
    | some last => rfl

theorem Registry.IsTidy.find?_foldl_run (h : r.IsTidy) (hName : isRootName name = false) {l : Logger}
    (hFound : r.find? name = some l) (calls : List Call) :
    ∃ m, (calls.foldl Call.run r).find? name = some m ∧
      m.level = if IsProgramName name then (lastLevel? calls).getD l.level else l.level := by
  induction calls generalizing r l with
  | nil => exact ⟨l, hFound, (ite_self l.level).symm⟩
  | cons call calls ih =>
    obtain ⟨next, hNext, hLevel⟩ := h.find?_run hName hFound call
    obtain ⟨m, hm, hLast⟩ := ih (h.run call) hNext
    refine ⟨m, hm, ?_⟩
    rw [hLast, hLevel, lastLevel?_cons, Option.getD_or]
    split
    · rfl
    · rfl

end

/-- Once a logger is set up it has one handler, and later set-ups give it back and change nothing. Its level is the one
of its first set-up; for a name of the program it is the one of the last change since then, if there was any. -/
theorem logger_afterCalls (before after : List Call) (name : String) (level : Int) (hEmpty : name ≠ "")
    (hRoot : name ≠ rootName) (hFirst : ∀ level, .setUp name level ∉ before) :
    ∃ l, (afterCalls (before ++ .setUp name level :: after)).find? name = some l ∧ l.handlers = 1 ∧
      l.propagates = false ∧ l.level = (if IsProgramName name then (lastLevel? after).getD level else level) ∧
      ∀ later, (afterCalls (before ++ .setUp name level :: after)).setUp name later =
        (afterCalls (before ++ .setUp name level :: after), l) := by
  have hName := (isRootName_eq_false_iff name).mpr ⟨hEmpty, hRoot⟩
  have hBefore : (afterCalls before).IsTidy := isTidy_empty.foldl_run before
  have hNone : (afterCalls before).find? name = none := by
    refine isTidy_empty.find?_foldl_run_eq_none hName hFirst ?_
    rw [Registry.find?_eq hName]
    rfl
  obtain ⟨parent, hSetUp⟩ := Registry.setUp_of_none hName hNone level
  have hAdded : ((Call.setUp name level).run (afterCalls before)).find? name = some ⟨name, level, 1, false, parent⟩ := by
    have hOthers := Registry.name_ne_of_find? hName hNone
    rw [Call.run, hSetUp, Registry.find?_eq hName, List.find?_append, find?_map_of_name (Logger.name_adopt _),
      List.find?_eq_none.mpr (by simpa using hOthers)]
    simp
  have hTidy := hBefore.run (.setUp name level)
  have hCalls : afterCalls (before ++ .setUp name level :: after) =
      after.foldl Call.run ((Call.setUp name level).run (afterCalls before)) := by
    rw [afterCalls, List.foldl_append, List.foldl_cons, afterCalls]
  obtain ⟨l, hFound, hLevel⟩ := hTidy.find?_foldl_run hName hAdded after
  have hAfter := hTidy.foldl_run after
  have hReady := hAfter.ready l (Registry.mem_of_find? hName hFound).1
  rw [hCalls]
  exact ⟨l, hFound, hReady.handlers, hReady.propagates, hLevel, hAfter.setUp_of_some hName hFound⟩

/-- A logger of the program between others: it is set up twice, and levels are changed before and after. -/
theorem logger_afterCalls_of_program :
    ∃ l, (afterCalls [.setUp "cucumber_runner" 30, .setLevel 40, .setUp "cucumber_runner.cli" 20, .setUp "x" 20,
        .setLevel 10, .setUp "cucumber_runner.cli" 50]).find? "cucumber_runner.cli" = some l ∧
      l.handlers = 1 ∧ l.level = 10 := by
  obtain ⟨l, hFound, hHandlers, -, hLevel, -⟩ := logger_afterCalls [.setUp "cucumber_runner" 30, .setLevel 40]
    [.setUp "x" 20, .setLevel 10, .setUp "cucumber_runner.cli" 50] "cucumber_runner.cli" 20 (by decide) (by decide)
    (by simp)
  exact ⟨l, hFound, hHandlers, hLevel⟩

/-- A program that is started by its file has the name `__main__`, which no change of levels reaches. -/
theorem not_forall_level_eq_lastLevel :
    ¬ ∀ (before after : List Call) (name : String) (level : Int), name ≠ "" → name ≠ rootName →
      (∀ level, .setUp name level ∉ before) → ∀ l,
        (afterCalls (before ++ .setUp name level :: after)).find? name = some l →
          l.level = (lastLevel? after).getD level := by
  intro h
  have hFound : (afterCalls ([] ++ .setUp "__main__" 20 :: [.setLevel 10])).find? "__main__" =
      some ⟨"__main__", 20, 1, false, rootName⟩ := by
    decide
  have hLevel := h [] [.setLevel 10] "__main__" 20 (by decide) (by decide) (by simp) _ hFound
  exact absurd hLevel (by decide)

end ScenarioRunner.Console
