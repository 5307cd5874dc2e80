import ScenarioRunner.Fault
import ScenarioRunner.Settings.Environment
import ScenarioRunner.Settings.Value

/-!
# Layers of settings

A layer lies over another mapping: the keys of the lower mapping stay in their order, and new keys follow in theirs.
What happens to a key that both have depends on the kind of layer. Variables are put in last.
-/

namespace ScenarioRunner.Settings

set_option autoImplicit false

def newEntries (lower upper : Entries) : Entries :=
  upper.filter fun entry => (valueOf? lower entry.1).isNone

def layer (combine : Value → Value → Value) (lower upper : Entries) : Entries :=
  lower.map (fun entry =>
    (entry.1, match valueOf? upper entry.1 with
      | some v => combine entry.2 v
      | none => entry.2)) ++ newEntries lower upper

mutual

/-- Mappings are merged key by key, at every depth; any other upper value replaces the lower one. -/
def Value.merge : Value → Value → Value
  | .mapping lower, .mapping upper => .mapping (mergeShared lower upper ++ newEntries lower upper)
  | _, upper => upper

def mergeShared : Entries → Entries → Entries
  | [], _ => []
  | (key, v) :: rest, upper =>
    (key, match valueOf? upper key with
      | some w => v.merge w
      | none => v) :: mergeShared rest upper

end

def mergeEntries (lower upper : Entries) : Entries :=
  mergeShared lower upper ++ newEntries lower upper

theorem mergeEntries_eq_layer (lower upper : Entries) : mergeEntries lower upper = layer Value.merge lower upper := by
  have h : ∀ rest : Entries, mergeShared rest upper = rest.map fun entry =>
      (entry.1, match valueOf? upper entry.1 with
        | some v => entry.2.merge v
        | none => entry.2) := by
    intro rest
    induction rest with
    | nil => simp [mergeShared]
    | cons entry rest ih => simp [mergeShared, ih]
  simp [mergeEntries, layer, h]

def updateEntries (lower upper : Entries) : Entries :=
  layer (fun _ v => v) lower upper

/-- A section of overrides updates the section of the same name, one level deep. -/
def overrideSection : Value → Value → Value
  | .mapping entries, .mapping values => .mapping (updateEntries entries values)
  | _, values => values

def applyOverrides (settings overrides : Entries) : Entries :=
  layer overrideSection settings overrides

/-- Merging any two values: only a mapping can be laid over another one. A list is left alone by an empty mapping. -/
def mergeOver : Value → Value → Except Fault Value
  | .mapping lower, .mapping upper => .ok (.mapping (mergeEntries lower upper))
  | .list items, .mapping [] => .ok (.list items)
  | .list _, .mapping _ => .error .overlayNotContainer
  | _, _ => .error .overlayNotMapping

/-- Overriding any value: only a mapping has sections to override. -/
def overrideWith : Value → Value → Except Fault Value
  | .mapping settings, .mapping overrides => .ok (.mapping (applyOverrides settings overrides))
  | v, .mapping [] => .ok v
  | _, .mapping _ => .error .overlayNotContainer
  | _, _ => .error .overlayNotMapping

def reference? (s : String) : Option String :=
  match s.toList with
  | '$' :: '\x7b' :: rest => if rest.getLast? == some '\x7d' then some (String.ofList rest.dropLast) else none
  | _ => none

def substituteText (env : Environment) (s : String) : String :=
  match reference? s with
  | some name => (env.get? name).getD s
  | none => s

def halvedReference? (points : List Text.CodePoint) : Option (List Text.CodePoint) :=
  match points with
  | .char '$' :: .char '\x7b' :: rest => if rest.getLast? == some (.char '\x7d') then some rest.dropLast else none
  | _ => none

/-- Such a name can still be the bytes of the name of a variable. -/
def substituteHalved (env : Environment) (points : List Text.CodePoint) : Scalar :=
  let bytes? := (halvedReference? points).bind Text.systemBytes?
  match (bytes?.bind Text.decodeUtf8?).bind fun name => env.get? (String.ofList name) with
  | some s => .text s
  | none => .halved points

def isHalvedReference (points : List Text.CodePoint) : Bool :=
  (halvedReference? points).any fun name => (Text.systemBytes? name).isNone

mutual

/-- Every text that refers to a variable gets its value; an unknown variable leaves the text as it is. -/
def Value.substitute (env : Environment) : Value → Value
  | .text s => .text (substituteText env s)
  | .scalar (.halved points) => .scalar (substituteHalved env points)
  | .list items => .list (substituteItems env items)
  | .mapping entries => .mapping (substituteEntries env entries)
  | v => v

def substituteItems (env : Environment) : List Value → List Value
  | [] => []
  | v :: rest => v.substitute env :: substituteItems env rest

def substituteEntries (env : Environment) : Entries → Entries
  | [] => []
  | (key, v) :: rest => (key, v.substitute env) :: substituteEntries env rest

end

mutual

def Value.hasHalvedReference : Value → Bool
  | .scalar (.halved points) => isHalvedReference points
  | .scalar _ => false
  | .list items => anyHalvedReference items
  | .mapping entries => anyHalvedEntry entries

def anyHalvedReference : List Value → Bool
  | [] => false
  | v :: rest => v.hasHalvedReference || anyHalvedReference rest

def anyHalvedEntry : Entries → Bool
  | [] => false
  | (_, v) :: rest => v.hasHalvedReference || anyHalvedEntry rest

end

end ScenarioRunner.Settings
