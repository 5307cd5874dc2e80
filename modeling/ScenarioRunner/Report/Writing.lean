import ScenarioRunner.Decimal.Limit

/-!
# Writings

A text that is written part by part and ends at the first part that cannot be written. Main statements: writing is
associative, so that it does not matter how the parts are grouped; and a row of parts is written to its end if each of
them can be written.
-/

namespace ScenarioRunner.Report

set_option autoImplicit false

/-- A text as far as it could be written, and what stopped it. -/
structure Writing where
  text : String := ""
  fault : Option Fault := none
deriving DecidableEq

def Writing.ofText (s : String) : Writing :=
  { text := s }

/-- Nothing of a text that cannot be written as a whole. -/
def Writing.whole (s : Except Fault String) : Writing :=
  match s with
  | .ok s => { text := s }
  | .error reason => { fault := some reason }

/-- After a fault nothing is written. -/
def Writing.append (w next : Writing) : Writing :=
  match w.fault with
  | some _ => w
  | none => ⟨w.text ++ next.text, next.fault⟩

instance : Append Writing := ⟨Writing.append⟩

theorem Writing.append_def (v w : Writing) : v ++ w = v.append w := rfl

theorem Writing.append_assoc (u v w : Writing) : u ++ v ++ w = u ++ (v ++ w) := by
  obtain ⟨_, _ | _⟩ := u <;> obtain ⟨_, _ | _⟩ := v <;>
    simp [Writing.append_def, Writing.append, String.append_assoc]

instance : Std.Associative fun v w : Writing => v ++ w :=
  ⟨Writing.append_assoc⟩

theorem Writing.fault_append_eq_none_iff (v w : Writing) :
    (v ++ w).fault = none ↔ v.fault = none ∧ w.fault = none := by
  obtain ⟨_, _ | _⟩ := v <;> simp [Writing.append_def, Writing.append]

theorem Writing.text_append {v : Writing} (h : v.fault = none) (w : Writing) : (v ++ w).text = v.text ++ w.text := by
  rw [Writing.append_def, Writing.append, h]

def Writing.join (parts : List Writing) : Writing :=
  parts.foldl (· ++ ·) {}

theorem Writing.join_cons (w : Writing) (parts : List Writing) :
    Writing.join (w :: parts) = w ++ Writing.join parts := by
  have hStart : ({} : Writing) ++ w = w ++ ({} : Writing) := by
    obtain ⟨_, _ | _⟩ := w <;> simp [Writing.append_def, Writing.append]
  rw [Writing.join, List.foldl_cons, hStart, List.foldl_assoc, ← Writing.join]

theorem Writing.fault_join_eq_none_iff (parts : List Writing) :
    (Writing.join parts).fault = none ↔ ∀ w ∈ parts, w.fault = none := by
  induction parts with
  | nil => simp [Writing.join]
  | cons w parts ih => rw [Writing.join_cons, Writing.fault_append_eq_none_iff, ih, List.forall_mem_cons]

theorem Writing.text_join {parts : List Writing} (h : ∀ w ∈ parts, w.fault = none) :
    (Writing.join parts).text = String.join (parts.map Writing.text) := by
  induction parts with
  | nil => rfl
  | cons w parts ih =>
    obtain ⟨hFirst, hRest⟩ := List.forall_mem_cons.mp h
    rw [Writing.join_cons, Writing.text_append hFirst, ih hRest, List.map_cons, String.join_cons]

/-- A part between the others belongs to the one behind it. -/
theorem Writing.join_intersperse_cons (between w : Writing) (parts : List Writing) :
    Writing.join ((w :: parts).intersperse between) = w ++ Writing.join (parts.map (between ++ ·)) := by
  induction parts generalizing w with
  | nil => rw [List.intersperse_singleton, List.map_nil, Writing.join_cons]
  | cons next parts ih =>
    rw [List.intersperse_cons_cons, Writing.join_cons, Writing.join_cons, ih, List.map_cons, Writing.join_cons,
      Writing.append_assoc]

end ScenarioRunner.Report
