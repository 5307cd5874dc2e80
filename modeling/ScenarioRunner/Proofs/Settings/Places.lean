import ScenarioRunner.Proofs.Settings.Lookup

/-!
# Places in a value

A place is reached step by step: from a mapping by a key, from a list by a number. Main statement: the path of a dotted
name leads to the place that its keys lead to.
-/

namespace ScenarioRunner.Settings

set_option autoImplicit false

@[elab_as_elim]
theorem Value.induction {motive : Value → Prop} (scalar : ∀ s, motive (.scalar s))
    (list : ∀ items : List Value, (∀ v ∈ items, motive v) → motive (.list items))
    (mapping : ∀ entries : Entries, (∀ entry ∈ entries, motive entry.2) → motive (.mapping entries)) (v : Value) :
    motive v :=
  @Value.rec motive (fun items => ∀ w ∈ items, motive w) (fun entries => ∀ entry ∈ entries, motive entry.2)
    (fun entry => motive entry.2) scalar list mapping (List.forall_mem_nil _)
    (fun _ _ h hRest => List.forall_mem_cons.mpr ⟨h, hRest⟩) (List.forall_mem_nil _)
    (fun _ _ h hRest => List.forall_mem_cons.mpr ⟨h, hRest⟩) (fun _ _ h => h) v

inductive Step where
  | key (k : Scalar)
  | item (i : Nat)
deriving DecidableEq

def Value.step? : Value → Step → Option Value
  | .mapping entries, .key k => valueOf? entries k
  | .list items, .item i => items[i]?
  | _, _ => none

def Value.at? : Value → List Step → Option Value
  | v, [] => some v
  | v, step :: steps => (v.step? step).bind fun w => w.at? steps

@[simp] theorem Value.at?_cons (v : Value) (step : Step) (steps : List Step) :
    v.at? (step :: steps) = (v.step? step).bind fun w => w.at? steps := rfl

def Value.atKeys? (v : Value) (keys : List Scalar) : Option Value :=
  v.at? (keys.map .key)

@[simp] theorem Value.atKeys?_cons (v : Value) (key : Scalar) (keys : List Scalar) :
    v.atKeys? (key :: keys) = (v.step? (.key key)).bind fun w => w.atKeys? keys := rfl

theorem Value.step?_key_of_not_isMapping {v : Value} (h : v.isMapping = false) (key : Scalar) :
    v.step? (.key key) = none := by
  cases v with
  | mapping entries => cases h
  | list items => rfl
  | scalar s => rfl

theorem Value.find?_eq_atKeys? (v : Value) (path : List String) : v.find? path = v.atKeys? (path.map .text) := by
  induction path generalizing v with
  | nil => cases v <;> rfl
  | cons key path ih =>
    rw [List.map_cons, Value.atKeys?_cons]
    cases v with
    | mapping entries =>
      rw [Value.find?, Value.step?]
      cases valueOf? entries (.text key) with
      | none => rfl
      | some w => exact ih w
    | list items => rfl
    | scalar s => rfl

end ScenarioRunner.Settings
