/-!
# Leading text

Reading a line from the left: what follows a fixed lead, what follows a run of characters, and whether one text
occurs in another.
-/

namespace ScenarioRunner.Text

set_option autoImplicit false

def after? : List Char → List Char → Option (List Char)
  | [], s => some s
  | _ :: _, [] => none
  | w :: ws, c :: s => if w = c then after? ws s else none

theorem after?_eq_some_iff (lead s rest : List Char) : after? lead s = some rest ↔ s = lead ++ rest := by
  induction lead generalizing s with
  | nil => simp [after?]
  | cons w ws ih =>
    cases s with
    | nil => simp [after?]
    | cons c s =>
      by_cases h : w = c
      · simp [after?, h, ih]
      · simp [after?, h, Ne.symm h]

theorem length_of_after? {lead s rest : List Char} (h : after? lead s = some rest) :
    s.length = lead.length + rest.length := by
  rw [(after?_eq_some_iff lead s rest).mp h, List.length_append]

def afterFirst? (stop : Char) : List Char → Option (List Char)
  | [] => none
  | c :: s => if c = stop then some s else afterFirst? stop s

theorem length_of_afterFirst? {stop : Char} {s rest : List Char} (h : afterFirst? stop s = some rest) :
    rest.length < s.length := by
  induction s with
  | nil => simp [afterFirst?] at h
  | cons c s ih =>
    simp only [afterFirst?] at h
    split at h
    · cases h
      simp
    · have := ih h
      simp only [List.length_cons]
      omega

def run? (p : Char → Bool) (s : List Char) : Option (List Char × List Char) :=
  match s.takeWhile p with
  | [] => none
  | run => some (run, s.dropWhile p)

def occursIn (part : List Char) : List Char → Bool
  | [] => part.isEmpty
  | c :: s => part.isPrefixOf (c :: s) || occursIn part s

theorem occursIn_eq_true_iff (part s : List Char) : occursIn part s = true ↔ part <:+: s := by
  induction s with
  | nil => simp [occursIn]
  | cons c s ih => simp [occursIn, ih, List.infix_cons_iff]

end ScenarioRunner.Text
