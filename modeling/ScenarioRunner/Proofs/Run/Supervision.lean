import Mathlib.Logic.Relation
import Mathlib.Tactic.Common
import ScenarioRunner.Run.Supervisor

/-!
# At most one child

Calls on a supervisor come in any order, what is done with a line may be a call as well, and a child may end by itself
at any time. All of this is a sequence of steps. Main statement: whatever the steps so far, every earlier child is over
when one is launched, stopping always answers yes and leaves alone what has ended, and a run that returns normally has
seen the end of its child and holds nothing.
-/

namespace ScenarioRunner.Run

open ScenarioRunner.Settings

set_option autoImplicit false

/-! ## Processes -/

def Child.stopSignals (c : Child) : List Signal :=
  [.terminate, .waitBriefly] ++ if c.isStubborn then [.kill] else []

/-- The process has ended by itself, or it was asked to terminate and, if that did not end it in time, killed. After
that it may have been waited for. -/
structure Process.IsOver (p : Process) : Prop where
  isRunning_eq : p.isRunning = false
  signals_eq : ∃ waits, p.signals = List.replicate waits .wait ∨
    p.signals = p.child.stopSignals ++ List.replicate waits .wait

structure Process.IsUntouched (p : Process) : Prop where
  isRunning_eq : p.isRunning = true
  signals_eq : p.signals = []

def Process.exit (p : Process) : Process :=
  { p with isRunning := false }

theorem Process.stop_eq_self {p : Process} (h : p.isRunning = false) : p.stop = p := by
  rw [Process.stop, h]
  rfl

structure Ends (f : Process → Process) : Prop where
  child_eq : ∀ p, (f p).child = p.child
  isRunning_eq : ∀ p, (f p).isRunning = false
  isOver : ∀ p : Process, p.IsOver ∨ p.IsUntouched → (f p).IsOver

theorem ends_exit : Ends Process.exit where
  child_eq _ := rfl
  isRunning_eq _ := rfl
  isOver := by
    rintro p (hOver | hUntouched)
    · exact ⟨rfl, hOver.signals_eq⟩
    · exact ⟨rfl, 0, .inl hUntouched.signals_eq⟩

theorem ends_stop : Ends Process.stop where
  child_eq p := by
    rw [Process.stop]
    split
    · rfl
    · rfl
  isRunning_eq p := by
    rw [Process.stop]
    split
    · next hRunning => exact (Bool.not_eq_true' _).mp hRunning
    · rfl
  isOver := by
    rintro p (hOver | hUntouched)
    · rwa [Process.stop_eq_self hOver.isRunning_eq]
    · have hStop : p.stop = { p with isRunning := false, signals := p.child.stopSignals } := by
        rw [Process.stop, hUntouched.isRunning_eq, hUntouched.signals_eq]
        rfl
      rw [hStop]
      exact ⟨rfl, 0, .inr (List.append_nil _).symm⟩

theorem ends_await : Ends Process.await where
  child_eq _ := rfl
  isRunning_eq _ := rfl
  isOver := by
    rintro p (hOver | hUntouched)
    · obtain ⟨waits, hSignals | hSignals⟩ := hOver.signals_eq
      · refine ⟨rfl, waits + 1, .inl ?_⟩
        rw [Process.await, hSignals, List.replicate_succ']
      · refine ⟨rfl, waits + 1, .inr ?_⟩
        simp only [Process.await, hSignals, List.replicate_succ', List.append_assoc]
    · refine ⟨rfl, 1, .inl ?_⟩
      rw [Process.await, hUntouched.signals_eq]
      rfl

theorem Process.isOver_or_isUntouched_ofChild (child : Child) :
    (Process.ofChild child).IsOver ∨ (Process.ofChild child).IsUntouched := by
  cases hExited : child.hasExited with
  | true => exact .inl ⟨by rw [Process.ofChild, hExited]; rfl, 0, .inl rfl⟩
  | false => exact .inr ⟨by rw [Process.ofChild, hExited]; rfl, rfl⟩

/-! ## Steps -/

def Supervisor.endWith (s : Supervisor) (i : Nat) (f : Process → Process) : Supervisor :=
  { s with processes := s.processes.modify i f }

def Supervisor.asked (s : Supervisor) (launch : Launch) : Supervisor :=
  { s.kill with launches := s.kill.launches ++ [launch] }

inductive Step : Supervisor → Supervisor → Prop where
  /-- A process ends by itself. -/
  | exits (s : Supervisor) (i : Nat) : Step s (s.endWith i Process.exit)
  | kills (s : Supervisor) : Step s s.kill
  /-- The system does not launch. -/
  | fails (s : Supervisor) (launch : Launch) : Step s (s.asked launch)
  | launches (s : Supervisor) (launch : Launch) (child : Child) : Step s ((s.asked launch).adopt child)
  /-- A run waits for its process and lets it go. -/
  | finishes (s : Supervisor) (i : Nat) : Step s ((s.await i).release i)

abbrev Reaches : Supervisor → Supervisor → Prop :=
  Relation.ReflTransGen Step

/-! ## What is not over -/

/-- Every process is over, but for the held one, which may be untouched instead. -/
def Supervisor.IsTidy (s : Supervisor) : Prop :=
  ∀ i p, s.processes[i]? = some p → p.IsOver ∨ s.held = some i ∧ p.IsUntouched

def Supervisor.IsQuiet (s : Supervisor) : Prop :=
  ∀ p ∈ s.processes, p.IsOver

section

variable {s s' : Supervisor} {f : Process → Process} {i j : Nat} {p : Process}

theorem Supervisor.isTidy_start (settings : RunnerSettings) (environment : Environment) :
    Supervisor.IsTidy { settings, environment } := by
  intro i p h
  simp at h

theorem Supervisor.getElem?_endWith (h : (s.endWith i f).processes[j]? = some p) :
    ∃ q, s.processes[j]? = some q ∧ p = if i = j then f q else q := by
  rw [Supervisor.endWith, List.getElem?_modify] at h
  obtain ⟨q, hq, rfl⟩ := Option.map_eq_some_iff.mp h
  exact ⟨q, hq, rfl⟩

theorem Supervisor.IsTidy.endWith (h : s.IsTidy) (hEnds : Ends f) (i : Nat) : (s.endWith i f).IsTidy := by
  intro j p hp
  obtain ⟨q, hq, rfl⟩ := Supervisor.getElem?_endWith hp
  split_ifs
  · exact .inl (hEnds.isOver q ((h j q hq).imp id And.right))
  · exact h j q hq

/-- Once the held process has ended, nothing runs any more. -/
theorem Supervisor.IsTidy.isQuiet_endWith (h : s.IsTidy) (hEnds : Ends f) (hHeld : s.held = some i) :
    (s.endWith i f).IsQuiet := by
  intro p hp
  obtain ⟨j, hj⟩ := List.mem_iff_getElem?.mp hp
  obtain ⟨q, hq, rfl⟩ := Supervisor.getElem?_endWith hj
  split_ifs with hIndex
  · exact hEnds.isOver q ((h j q hq).imp id And.right)
  · obtain hOver | ⟨hIsHeld, -⟩ := h j q hq
    · exact hOver
    · exact absurd (Option.some.inj (hHeld.symm.trans hIsHeld)) hIndex

theorem Supervisor.IsTidy.isQuiet (h : s.IsTidy) (hHeld : s.held = none) : s.IsQuiet := by
  intro p hp
  obtain ⟨j, hj⟩ := List.mem_iff_getElem?.mp hp
  obtain hOver | ⟨hIsHeld, -⟩ := h j p hj
  · exact hOver
  · rw [hHeld] at hIsHeld
    cases hIsHeld

theorem Supervisor.IsQuiet.isTidy (h : s.IsQuiet) : s.IsTidy :=
  fun _ p hp => .inl (h p (List.mem_of_getElem? hp))

theorem Supervisor.kill_cases (s : Supervisor) :
    s.held = none ∧ s.kill = s ∨ ∃ i, s.held = some i ∧ s.kill = s.endWith i Process.stop := by
  cases hHeld : s.held with
  | none => exact .inl ⟨rfl, by rw [Supervisor.kill, hHeld]⟩
  | some i => exact .inr ⟨i, rfl, by simp only [Supervisor.kill, hHeld, Supervisor.endWith]⟩

theorem Supervisor.held_kill (s : Supervisor) : s.kill.held = s.held := by
  obtain ⟨-, hKill⟩ | ⟨i, -, hKill⟩ := s.kill_cases
  · rw [hKill]
  · rw [hKill, Supervisor.endWith]

theorem Supervisor.length_processes_kill (s : Supervisor) : s.kill.processes.length = s.processes.length := by
  obtain ⟨-, hKill⟩ | ⟨i, -, hKill⟩ := s.kill_cases
  · rw [hKill]
  · rw [hKill, Supervisor.endWith, List.length_modify]

theorem Supervisor.IsTidy.isQuiet_kill (h : s.IsTidy) : s.kill.IsQuiet := by
  obtain ⟨hHeld, hKill⟩ | ⟨i, hHeld, hKill⟩ := s.kill_cases
  · rw [hKill]
    exact h.isQuiet hHeld
  · rw [hKill]
    exact h.isQuiet_endWith ends_stop hHeld

theorem Supervisor.IsQuiet.isTidy_adopt (h : s.IsQuiet) (child : Child) : (s.adopt child).IsTidy := by
  intro j p hp
  rw [Supervisor.adopt, List.getElem?_append] at hp
  split_ifs at hp with hOld
  · exact .inl (h p (List.mem_of_getElem? hp))
  · rw [List.getElem?_singleton] at hp
    split_ifs at hp with hLast
    cases hp
    obtain hOver | hUntouched := Process.isOver_or_isUntouched_ofChild child
    · exact .inl hOver
    · have hIndex : s.processes.length = j := by omega
      exact .inr ⟨congrArg some hIndex, hUntouched⟩

theorem Supervisor.IsTidy.finish (h : s.IsTidy) (i : Nat) : ((s.await i).release i).IsTidy := by
  rw [Supervisor.release]
  split_ifs with hHeld
  · have hQuiet : (s.await i).IsQuiet := h.isQuiet_endWith ends_await hHeld
    exact Supervisor.IsQuiet.isTidy hQuiet
  · exact h.endWith ends_await i

theorem Step.isTidy (h : Step s s') (hTidy : s.IsTidy) : s'.IsTidy := by
  cases h with
  | exits i => exact hTidy.endWith ends_exit i
  | kills => exact hTidy.isQuiet_kill.isTidy
  | fails launch => exact Supervisor.IsQuiet.isTidy hTidy.isQuiet_kill
  | launches launch child => exact Supervisor.IsQuiet.isTidy_adopt hTidy.isQuiet_kill child
  | finishes i => exact hTidy.finish i

theorem Reaches.isTidy (h : Reaches s s') (hTidy : s.IsTidy) : s'.IsTidy := by
  induction h with
  | refl => exact hTidy
  | tail _ hStep ih => exact hStep.isTidy ih

/-! ## What stays -/

/-- Every process keeps its place, and none runs again. -/
def Supervisor.Grows (s s' : Supervisor) : Prop :=
  ∀ (i : Nat) (p : Process), s.processes[i]? = some p →
    ∃ p' : Process, s'.processes[i]? = some p' ∧ p'.child = p.child ∧ (p.isRunning = false → p'.isRunning = false)

theorem Supervisor.Grows.refl (s : Supervisor) : s.Grows s :=
  fun _ p hp => ⟨p, hp, rfl, id⟩

theorem Supervisor.Grows.trans {s'' : Supervisor} (h : s.Grows s') (h' : s'.Grows s'') : s.Grows s'' := by
  intro i p hp
  obtain ⟨p', hp', hChild, hRunning⟩ := h i p hp
  obtain ⟨p'', hp'', hChild', hRunning'⟩ := h' i p' hp'
  exact ⟨p'', hp'', hChild'.trans hChild, hRunning' ∘ hRunning⟩

theorem Supervisor.grows_endWith (s : Supervisor) (hEnds : Ends f) (i : Nat) : s.Grows (s.endWith i f) := by
  intro j p hp
  have hModified : (s.endWith i f).processes[j]? = some (if i = j then f p else p) := by
    rw [Supervisor.endWith, List.getElem?_modify, hp]
    rfl
  refine ⟨_, hModified, ?_⟩
  split_ifs
  · exact ⟨hEnds.child_eq p, fun _ => hEnds.isRunning_eq p⟩
  · exact ⟨rfl, id⟩

theorem Supervisor.grows_kill (s : Supervisor) : s.Grows s.kill := by
  obtain ⟨-, hKill⟩ | ⟨i, -, hKill⟩ := s.kill_cases
  · rw [hKill]
    exact .refl s
  · rw [hKill]
    exact s.grows_endWith ends_stop i

theorem Supervisor.grows_adopt (s : Supervisor) (child : Child) : s.Grows (s.adopt child) := by
  intro i p hp
  refine ⟨p, ?_, rfl, id⟩
  rw [Supervisor.adopt, List.getElem?_append_left (List.getElem?_eq_some_iff.mp hp).1, hp]

theorem Supervisor.processes_release (s : Supervisor) (i : Nat) : (s.release i).processes = s.processes := by
  rw [Supervisor.release]
  split_ifs
  · rfl
  · rfl

theorem Step.grows (h : Step s s') : s.Grows s' := by
  cases h with
  | exits i => exact s.grows_endWith ends_exit i
  | kills => exact s.grows_kill
  | fails launch => exact s.grows_kill
  | launches launch child => exact s.grows_kill.trans ((s.asked launch).grows_adopt child)
  | finishes i =>
    intro j p hp
    rw [Supervisor.processes_release]
    exact s.grows_endWith ends_await i j p hp

theorem Reaches.grows (h : Reaches s s') : s.Grows s' := by
  induction h with
  | refl => exact .refl s
  | tail _ hStep ih => exact ih.trans hStep.grows

/-- What is held was held before, or it is a process launched since. -/
def Supervisor.HoldsSince (s s' : Supervisor) : Prop :=
  ∀ i, s'.held = some i → s.held = some i ∨ s.processes.length ≤ i

theorem Supervisor.held_of_release (h : (s.release i).held = some j) : s.held = some j := by
  rw [Supervisor.release] at h
  split_ifs at h
  exact h

theorem Step.holdsSince (h : Step s s') : s.HoldsSince s' ∧ s.processes.length ≤ s'.processes.length := by
  have hKill : s.HoldsSince s.kill := fun j hj => .inl (s.held_kill.symm.trans hj)
  have hLength := s.length_processes_kill
  cases h with
  | exits i => exact ⟨fun _ => .inl, Nat.le_of_eq (List.length_modify ..).symm⟩
  | kills => exact ⟨hKill, Nat.le_of_eq hLength.symm⟩
  | fails launch => exact ⟨hKill, Nat.le_of_eq hLength.symm⟩
  | launches launch child =>
    have hGrown : ((s.asked launch).adopt child).processes.length = s.kill.processes.length + 1 := List.length_append
    constructor
    · intro j hj
      have hPlace : s.kill.processes.length = j := Option.some.inj hj
      omega
    · omega
  | finishes i =>
    constructor
    · exact fun _ hj => .inl (Supervisor.held_of_release (s := s.await i) hj)
    · rw [Supervisor.processes_release]
      exact Nat.le_of_eq (List.length_modify ..).symm

theorem Reaches.holdsSince (h : Reaches s s') : s.HoldsSince s' ∧ s.processes.length ≤ s'.processes.length := by
  induction h with
  | refl => exact ⟨fun _ => .inl, Nat.le_refl _⟩
  | tail _ hStep ih =>
    obtain ⟨hHolds, hLength⟩ := hStep.holdsSince
    refine ⟨fun i hi => ?_, Nat.le_trans ih.2 hLength⟩
    obtain hHeld | hNew := hHolds i hi
    · exact ih.1 i hHeld
    · exact .inr (Nat.le_trans ih.2 hNew)

end

/-! ## Calls -/

/-- What is done with a line leads on by steps: it is nothing but calls. -/
def OnLine.MakesCalls {α : Type} (onLine : OnLine α) : Prop :=
  ∀ pipe line s acc, Reaches s (onLine pipe line (s, acc)).1.1

/-- What is done with a line does not hide the fault of a run that still holds its child. A fault at a line of the errors
is hidden by the run itself. -/
def OnLine.LetsGo {α : Type} (onLine : OnLine α) : Prop :=
  ∀ pipe line s acc, (pipe = .errors ∨ (onLine pipe line (s, acc)).2 = .ok ()) →
    (onLine pipe line (s, acc)).1.1.held = s.held ∨ (onLine pipe line (s, acc)).1.1.held = none

section

variable {α : Type} {onLine : OnLine α} {s : Supervisor} {system : Launch → LaunchResult} {name : String}
  {child : Child}

theorem makesCalls_ignoreLines : (ignoreLines : OnLine α).MakesCalls :=
  fun _ _ _ _ => .refl

theorem letsGo_ignoreLines : (ignoreLines : OnLine α).LetsGo :=
  fun _ _ _ _ _ => .inl rfl

theorem reaches_handLines (h : onLine.MakesCalls) (readsErrors : Bool) (arrivals : List (Pipe × String))
    (s : Supervisor) (acc : α) : Reaches s (handLines onLine readsErrors arrivals (s, acc)).1.1 := by
  induction arrivals generalizing readsErrors s acc with
  | nil => exact .refl
  | cons arrival rest ih =>
    obtain ⟨pipe, line⟩ := arrival
    have hLine := h pipe line s acc
    cases pipe with
    | output =>
      rw [handLines]
      rcases hAnswer : onLine .output line (s, acc) with ⟨⟨s', acc'⟩, fault | done⟩
      · rw [hAnswer] at hLine
        exact hLine
      · rw [hAnswer] at hLine
        exact Relation.ReflTransGen.trans hLine (ih readsErrors s' acc')
    | errors =>
      rw [handLines]
      split_ifs
      · exact Relation.ReflTransGen.trans hLine (ih _ _ _)
      · exact ih false s acc

theorem eq_or_none_trans {before between after : Option Nat} (hFirst : between = before ∨ between = none)
    (hNext : after = between ∨ after = none) : after = before ∨ after = none := by
  obtain rfl | rfl := hNext
  · exact hFirst
  · exact .inr rfl

theorem held_handLines (h : onLine.LetsGo) (readsErrors : Bool) (arrivals : List (Pipe × String)) (s : Supervisor)
    (acc : α) (hOk : (handLines onLine readsErrors arrivals (s, acc)).2 = .ok ()) :
    (handLines onLine readsErrors arrivals (s, acc)).1.1.held = s.held ∨
      (handLines onLine readsErrors arrivals (s, acc)).1.1.held = none := by
  induction arrivals generalizing readsErrors s acc with
  | nil => exact .inl rfl
  | cons arrival rest ih =>
    obtain ⟨pipe, line⟩ := arrival
    have hLine := h pipe line s acc
    cases pipe with
    | output =>
      rw [handLines] at hOk ⊢
      rcases hAnswer : onLine .output line (s, acc) with ⟨⟨s', acc'⟩, fault | done⟩
      · rw [hAnswer] at hOk
        cases hOk
      · rw [hAnswer] at hLine hOk
        exact eq_or_none_trans (hLine (.inr rfl)) (ih readsErrors s' acc' hOk)
    | errors =>
      rw [handLines] at hOk ⊢
      split_ifs at hOk ⊢
      · exact eq_or_none_trans (hLine (.inl rfl)) (ih _ _ _ hOk)
      · exact ih false s acc hOk

def Supervisor.started (s : Supervisor) (name : String) (child : Child) : Supervisor :=
  (s.asked (launchFor s.settings s.environment name)).adopt child

def Supervisor.finish (s : Supervisor) (child : Child) (i : Nat) : Supervisor :=
  ((if child.interrupts then s.kill else s).await i).release i

theorem Supervisor.held_started (s : Supervisor) (name : String) (child : Child) :
    (s.started name child).held = some s.processes.length :=
  congrArg some s.length_processes_kill

theorem Supervisor.getElem?_started (s : Supervisor) (name : String) (child : Child) :
    (s.started name child).processes[s.processes.length]? = some (.ofChild child) := by
  rw [← s.length_processes_kill]
  exact List.getElem?_concat_length

theorem Supervisor.length_started (s : Supervisor) (name : String) (child : Child) :
    (s.started name child).processes.length = s.processes.length + 1 := by
  rw [← s.length_processes_kill]
  exact List.length_append

/-- The run of a launched child is broken off by a fault, or all lines are handed on and it comes to its end. -/
theorem Supervisor.run_started (onLine : OnLine α) (acc : α)
    (h : system (launchFor s.settings s.environment name) = .started child) :
    let handed := handLines onLine true child.arrivals (s.started name child, acc)
    let run := s.run system name onLine acc
    (∃ fault, run.2 = .error fault ∧ run.1.1 = handed.1.1) ∨
      handed.2 = .ok () ∧ run.1.1 = handed.1.1.finish child s.processes.length := by
  have hPlace : (s.asked (launchFor s.settings s.environment name)).processes.length = s.processes.length :=
    s.length_processes_kill
  generalize hHanded : handLines onLine true child.arrivals (s.started name child, acc) = result
  rw [Supervisor.started, Supervisor.asked] at hHanded
  obtain ⟨⟨s', acc'⟩, fault | done⟩ := result
  · have hRun : s.run system name onLine acc = ((s', acc'), .error fault) := by
      simp only [Supervisor.run, h, hHanded]
    rw [hRun]
    exact .inl ⟨fault, rfl, rfl⟩
  · have hRun : s.run system name onLine acc =
        ((s'.finish child s.processes.length, acc'), .ok ⟨pipeLines child.stdout, child.interrupts⟩) := by
      simp only [Supervisor.run, h, hHanded]
      rw [Supervisor.finish, ← hPlace]
      rfl
    rw [hRun]
    exact .inr ⟨rfl, rfl⟩

theorem reaches_finish (s : Supervisor) (child : Child) (i : Nat) : Reaches s (s.finish child i) := by
  rw [Supervisor.finish]
  split_ifs
  · exact .tail (.single (.kills s)) (.finishes s.kill i)
  · exact .single (.finishes s i)

theorem Supervisor.held_finish (s : Supervisor) (child : Child) (i : Nat) :
    (s.finish child i).held = if s.held = some i then none else s.held := by
  have hAwaited : ((if child.interrupts then s.kill else s).await i).held = s.held := by
    cases child.interrupts with
    | true => exact s.held_kill
    | false => rfl
  rw [Supervisor.finish, Supervisor.release, hAwaited]
  by_cases hHeld : s.held = some i
  · rw [if_pos hHeld, if_pos hHeld]
  · rw [if_neg hHeld, if_neg hHeld, hAwaited]

theorem Supervisor.isRunning_finish {i : Nat} {p : Process} (child : Child)
    (h : (s.finish child i).processes[i]? = some p) : p.isRunning = false := by
  rw [Supervisor.finish, Supervisor.processes_release] at h
  obtain ⟨q, -, rfl⟩ := Supervisor.getElem?_endWith h
  rw [if_pos rfl]
  rfl

theorem reaches_run (hCalls : onLine.MakesCalls) (s : Supervisor) (system : Launch → LaunchResult) (name : String)
    (acc : α) : Reaches s (s.run system name onLine acc).1.1 := by
  cases hLaunch : system (launchFor s.settings s.environment name) with
  | refused text =>
    simp only [Supervisor.run, hLaunch]
    exact .single (.fails s _)
  | failed text =>
    simp only [Supervisor.run, hLaunch]
    exact .single (.fails s _)
  | started child =>
    have hStarted : Reaches s (s.started name child) := .single (.launches s _ child)
    have hHanded := reaches_handLines hCalls true child.arrivals (s.started name child) acc
    obtain ⟨_, -, hRun⟩ | ⟨-, hRun⟩ := Supervisor.run_started onLine acc hLaunch
    · rw [hRun]
      exact hStarted.trans hHanded
    · rw [hRun]
      exact (hStarted.trans hHanded).trans (reaches_finish _ child _)

theorem Supervisor.held_run_started (hLets : onLine.LetsGo) (acc : α)
    (h : system (launchFor s.settings s.environment name) = .started child) {output : RunOutput}
    (hOk : (s.run system name onLine acc).2 = .ok output) : (s.run system name onLine acc).1.1.held = none := by
  obtain ⟨fault, hFault, -⟩ | ⟨hHanded, hRun⟩ := Supervisor.run_started onLine acc h
  · rw [hFault] at hOk
    cases hOk
  · have hHeld := held_handLines hLets true child.arrivals (s.started name child) acc hHanded
    rw [s.held_started name child] at hHeld
    rw [hRun, Supervisor.held_finish]
    split_ifs with hChild
    · rfl
    · exact hHeld.resolve_left hChild

/-- A run that does as its calls do is a call of the same kind. -/
theorem held_run (hLets : onLine.LetsGo) (s : Supervisor) (system : Launch → LaunchResult) (name : String) (acc : α)
    {output : RunOutput} (hOk : (s.run system name onLine acc).2 = .ok output) :
    (s.run system name onLine acc).1.1.held = s.held ∨ (s.run system name onLine acc).1.1.held = none := by
  cases hLaunch : system (launchFor s.settings s.environment name) with
  | refused text =>
    simp only [Supervisor.run, hLaunch] at hOk
    cases hOk
  | failed text =>
    simp only [Supervisor.run, hLaunch]
    exact .inl s.held_kill
  | started child => exact .inr (Supervisor.held_run_started hLets acc hLaunch hOk)

end

/-! ## Supervision -/

/-- A run of a launched child starts where the launch leaves off. If it returns normally, its child is over, and what is
held then, if anything, was launched later. -/
structure Supervisor.SeesThrough {α : Type} (s : Supervisor) (name : String) (child : Child) (s' : Supervisor)
    (result : Except Fault α) : Prop where
  reaches : Reaches (s.started name child) s'
  isOver : ∀ output, result = .ok output →
    ∃ p : Process, s'.processes[s.processes.length]? = some p ∧ p.child = child ∧ p.IsOver
  later : ∀ output, result = .ok output → ∀ i, s'.held = some i → s.processes.length < i

structure Supervisor.Supervises (s : Supervisor) : Prop where
  held_of_isRunning : ∀ (i : Nat) (p : Process), s.processes[i]? = some p → p.isRunning = true → s.held = some i
  isOver_at_launch : ∀ launch, ∀ p ∈ (s.asked launch).processes, p.IsOver
  grows : ∀ s', Reaches s s' → s.Grows s'
  reaches_callKill : Reaches s s.callKill.1
  callKill_answer : s.callKill.2 = true
  isOver_callKill : ∀ p ∈ s.callKill.1.processes, p.IsOver
  callKill_of_ended : ∀ (i : Nat) (p : Process), s.processes[i]? = some p → p.isRunning = false →
    s.callKill.1.processes[i]? = some p
  reaches_run : ∀ {α : Type} (onLine : OnLine α) (system : Launch → LaunchResult) (name : String) (acc : α),
    onLine.MakesCalls → Reaches s (s.run system name onLine acc).1.1
  seesThrough : ∀ {α : Type} (onLine : OnLine α) (system : Launch → LaunchResult) (name : String) (acc : α),
    onLine.MakesCalls → ∀ child, system (launchFor s.settings s.environment name) = .started child →
      s.SeesThrough name child (s.run system name onLine acc).1.1 (s.run system name onLine acc).2
  held_run : ∀ {α : Type} (onLine : OnLine α) (system : Launch → LaunchResult) (name : String) (acc : α),
    onLine.LetsGo → ∀ child, system (launchFor s.settings s.environment name) = .started child →
      ∀ output, (s.run system name onLine acc).2 = .ok output → (s.run system name onLine acc).1.1.held = none

section

variable {s : Supervisor}

theorem Supervisor.endWith_stop_eq_self {i : Nat} (h : ∀ p : Process, s.processes[i]? = some p → p.isRunning = false) :
    s.endWith i Process.stop = s := by
  have hSame : s.processes.modify i Process.stop = s.processes := by
    apply List.ext_getElem?
    intro j
    rw [List.getElem?_modify]
    cases hProcess : s.processes[j]? with
    | none => rfl
    | some p =>
      rw [Option.map_eq_map, Option.map_some]
      split_ifs with hIndex
      · rw [Process.stop_eq_self (h p (hIndex ▸ hProcess))]
      · rfl
  rw [Supervisor.endWith, hSame]

theorem Supervisor.callKill_eq (s : Supervisor) : s.callKill = (s.kill, true) := by
  obtain ⟨hHeld, hKill⟩ | ⟨i, hHeld, hKill⟩ := s.kill_cases
  · simp only [Supervisor.callKill, hHeld, hKill]
  · simp only [Supervisor.callKill, hHeld]
    split_ifs with hRunning
    · rfl
    · rw [hKill, Supervisor.endWith_stop_eq_self]
      intro p hp
      rw [hp] at hRunning
      exact Bool.eq_false_iff.mpr fun hTrue => hRunning (congrArg some hTrue)

theorem Supervisor.getElem?_kill_of_ended {i : Nat} {p : Process} (hp : s.processes[i]? = some p)
    (hEnded : p.isRunning = false) : s.kill.processes[i]? = some p := by
  obtain ⟨-, hKill⟩ | ⟨j, -, hKill⟩ := s.kill_cases
  · rwa [hKill]
  · rw [hKill, Supervisor.endWith, List.getElem?_modify, hp, Option.map_eq_map, Option.map_some]
    split_ifs
    · rw [Process.stop_eq_self hEnded]
    · rfl

theorem Supervisor.IsTidy.seesThrough {α : Type} {onLine : OnLine α} {system : Launch → LaunchResult} {name : String}
    {child : Child} (hTidy : s.IsTidy) (hCalls : onLine.MakesCalls) (acc : α)
    (h : system (launchFor s.settings s.environment name) = .started child) :
    s.SeesThrough name child (s.run system name onLine acc).1.1 (s.run system name onLine acc).2 := by
  have hHanded := reaches_handLines hCalls true child.arrivals (s.started name child) acc
  obtain ⟨fault, hFault, hRun⟩ | ⟨-, hRun⟩ := Supervisor.run_started onLine acc h
  · rw [hRun, hFault]
    exact ⟨hHanded, fun _ hOk => (nomatch hOk), fun _ hOk => (nomatch hOk)⟩
  · have hEnd : Reaches (s.started name child) (s.run system name onLine acc).1.1 := by
      rw [hRun]
      exact .trans hHanded (reaches_finish _ child s.processes.length)
    have hTidyEnd := hEnd.isTidy (Step.isTidy (.launches s _ child) hTidy)
    refine ⟨hEnd, fun _ _ => ?_, fun _ _ i hHeld => ?_⟩
    · obtain ⟨p, hp, hChild, -⟩ := hEnd.grows _ _ (s.getElem?_started name child)
      refine ⟨p, hp, hChild, ?_⟩
      obtain hOver | ⟨-, hUntouched⟩ := hTidyEnd _ _ hp
      · exact hOver
      · -- The run has waited for this process, so that it is not running.
        rw [hRun] at hp
        exact absurd hUntouched.isRunning_eq (Bool.eq_false_iff.mp (Supervisor.isRunning_finish child hp))
    · have hNotChild : i ≠ s.processes.length := by
        rintro rfl
        rw [hRun, Supervisor.held_finish] at hHeld
        split_ifs at hHeld with hChild
        exact hChild hHeld
      obtain hStarted | hNew := hEnd.holdsSince.1 i hHeld
      · rw [s.held_started name child] at hStarted
        exact absurd (Option.some.inj hStarted).symm hNotChild
      · rw [s.length_started name child] at hNew
        omega

/-- The supervisor has made any calls so far, and its children have ended whenever they liked. -/
theorem supervises_of_reaches {settings : RunnerSettings} {environment : Environment} {s : Supervisor}
    (h : Reaches { settings, environment } s) : s.Supervises := by
  have hTidy := h.isTidy (Supervisor.isTidy_start settings environment)
  constructor
  · intro i p hp hRunning
    obtain hOver | ⟨hHeld, -⟩ := hTidy i p hp
    · exact absurd hRunning (Bool.eq_false_iff.mp hOver.isRunning_eq)
    · exact hHeld
  · exact fun _ => hTidy.isQuiet_kill
  · exact fun _ hReaches => hReaches.grows
  · rw [s.callKill_eq]
    exact .single (.kills s)
  · rw [s.callKill_eq]
  · rw [s.callKill_eq]
    exact hTidy.isQuiet_kill
  · intro i p hp hEnded
    rw [s.callKill_eq]
    exact Supervisor.getElem?_kill_of_ended hp hEnded
  · exact fun _ system name acc hCalls => reaches_run hCalls s system name acc
  · exact fun _ _ _ acc hCalls _ hLaunch => hTidy.seesThrough hCalls acc hLaunch
  · exact fun _ _ _ acc hLets _ hLaunch _ hOk => Supervisor.held_run_started hLets acc hLaunch hOk

end

def failAtOnce : OnLine Unit :=
  fun _ _ state => (state, .error (.launchRefused "line"))

def runInside : OnLine Unit :=
  fun _ _ (s, acc) =>
    let inner := s.run (fun _ => .started {}) "inner" ignoreLines ()
    ((inner.1.1, acc), inner.2.map fun _ => ())

theorem makesCalls_runInside : runInside.MakesCalls :=
  fun _ _ s _ => reaches_run makesCalls_ignoreLines s _ "inner" ()

theorem letsGo_runInside : runInside.LetsGo := by
  intro pipe line s acc _
  have hInner : (s.run (fun _ => .started {}) "inner" (ignoreLines : OnLine Unit) ()).2 = .ok ⟨[], false⟩ := by
    simp only [Supervisor.run, handLines_ignoreLines]
    rfl
  exact held_run letsGo_ignoreLines s _ "inner" () hInner

def stubbornChild : Child :=
  { stdout := [120, 10], isStubborn := true }

/-- The first run fails at a line and leaves its child behind. -/
def abandoned : Supervisor :=
  (Supervisor.run { settings := { cwd := {} }, environment := [] } (fun _ => .started stubbornChild) "outer" failAtOnce
    ()).1.1

theorem supervises_of_abandoned_child :
    abandoned.processes = [⟨stubbornChild, true, []⟩] ∧ abandoned.Supervises ∧
      ∃ next, (abandoned.run (fun _ => .started stubbornChild) "outer" runInside ()).1.1 = next ∧ next.Supervises ∧
        next.held = none ∧ next.processes.map Process.signals =
          [[.terminate, .waitBriefly, .kill], [.terminate, .waitBriefly, .kill, .wait], [.wait]] := by
  have hCalls : failAtOnce.MakesCalls := fun _ _ _ _ => .refl
  have hReaches : Reaches { settings := { cwd := {} }, environment := [] } abandoned := reaches_run hCalls _ _ "outer" ()
  have hSupervises : abandoned.Supervises := supervises_of_reaches hReaches
  have hNext := hSupervises.reaches_run runInside (fun _ => .started stubbornChild) "outer" () makesCalls_runInside
  refine ⟨by decide, hSupervises, _, rfl, supervises_of_reaches (hReaches.trans hNext), ?_, by decide⟩
  exact hSupervises.held_run runInside _ "outer" () letsGo_runInside stubbornChild rfl _ rfl

end ScenarioRunner.Run
