import ScenarioRunner.Settings.Layer

/-!
# Shared mappings

In a settings file one mapping may stand at several places. Overrides reach a mapping and not a place: a section that
shares its mapping with other places is changed at all of them.
-/

namespace ScenarioRunner.Settings

set_option autoImplicit false

inductive SharedValue where
  | scalar (s : Scalar)
  | list (items : List SharedValue)
  /-- A mapping has the same number wherever it stands. -/
  | mapping (number : Nat) (entries : List (Scalar × SharedValue))
deriving Inhabited

abbrev SharedEntries := List (Scalar × SharedValue)

mutual

def SharedValue.equals : SharedValue → SharedValue → Bool
  | .scalar s, .scalar t => s == t
  | .list items, .list others => equalItems items others
  | .mapping number entries, .mapping other others => number == other && equalEntries entries others
  | _, _ => false

def equalItems : List SharedValue → List SharedValue → Bool
  | [], [] => true
  | v :: rest, w :: others => v.equals w && equalItems rest others
  | _, _ => false

def equalEntries : SharedEntries → SharedEntries → Bool
  | [], [] => true
  | (key, v) :: rest, (other, w) :: others => key == other && v.equals w && equalEntries rest others
  | _, _ => false

end

mutual

theorem SharedValue.equals_iff : (v w : SharedValue) → (v.equals w = true ↔ v = w)
  | .scalar s, .scalar t => by simp [SharedValue.equals]
  | .list items, .list others => by simp [SharedValue.equals, equalItems_iff items others]
  | .mapping number entries, .mapping other others => by
    simp [SharedValue.equals, equalEntries_iff entries others]
  | .scalar _, .list _ => by simp [SharedValue.equals]
  | .scalar _, .mapping _ _ => by simp [SharedValue.equals]
  | .list _, .scalar _ => by simp [SharedValue.equals]
  | .list _, .mapping _ _ => by simp [SharedValue.equals]
  | .mapping _ _, .scalar _ => by simp [SharedValue.equals]
  | .mapping _ _, .list _ => by simp [SharedValue.equals]

theorem equalItems_iff : (items others : List SharedValue) → (equalItems items others = true ↔ items = others)
  | [], [] => by simp [equalItems]
  | v :: rest, w :: others => by simp [equalItems, v.equals_iff w, equalItems_iff rest others]
  | [], _ :: _ => by simp [equalItems]
  | _ :: _, [] => by simp [equalItems]

theorem equalEntries_iff : (entries others : SharedEntries) → (equalEntries entries others = true ↔ entries = others)
  | [], [] => by simp [equalEntries]
  | (key, v) :: rest, (other, w) :: others => by
    simp [equalEntries, v.equals_iff w, equalEntries_iff rest others, and_assoc]
  | [], _ :: _ => by simp [equalEntries]
  | _ :: _, [] => by simp [equalEntries]

end

instance : DecidableEq SharedValue := fun v w => decidable_of_iff (v.equals w = true) (v.equals_iff w)

structure Update where
  number : Nat
  values : Entries

/-- The entries of a mapping after its updates, of which the last one counts. -/
def updateMapping (updates : List Update) (number : Nat) (entries : Entries) : Entries :=
  (updates.filter (·.number == number)).foldl (fun entries u => updateEntries entries u.values) entries

mutual

def SharedValue.updated (updates : List Update) : SharedValue → Value
  | .scalar s => .scalar s
  | .list items => .list (updatedItems updates items)
  | .mapping number entries => .mapping (updateMapping updates number (updatedEntries updates entries))

def updatedItems (updates : List Update) : List SharedValue → List Value
  | [] => []
  | v :: rest => v.updated updates :: updatedItems updates rest

def updatedEntries (updates : List Update) : SharedEntries → Entries
  | [] => []
  | (key, v) :: rest => (key, v.updated updates) :: updatedEntries updates rest

end

def SharedValue.value (v : SharedValue) : Value :=
  v.updated []

theorem SharedValue.value_mapping (number : Nat) (entries : SharedEntries) :
    (SharedValue.mapping number entries).value = .mapping (updatedEntries [] entries) := by
  simp [SharedValue.value, SharedValue.updated, updateMapping]

def updateBy? (settings : SharedEntries) (override : Scalar × Value) : Option Update :=
  match valueOf? settings override.1, override.2 with
  | some (.mapping number _), .mapping values => some ⟨number, values⟩
  | _, _ => none

/-- A mapping stays where it has been updated; any other section is replaced. -/
def replaceSection : Value → Value → Value
  | .mapping entries, .mapping _ => .mapping entries
  | _, v => v

def overrideShared (settings : SharedEntries) (overrides : Entries) : Entries :=
  layer replaceSection (updatedEntries (overrides.filterMap (updateBy? settings)) settings) overrides

end ScenarioRunner.Settings
