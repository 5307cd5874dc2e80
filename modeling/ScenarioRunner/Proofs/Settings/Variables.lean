import ScenarioRunner.Proofs.Settings.Places
import ScenarioRunner.Proofs.Settings.WholeReferences
import ScenarioRunner.Settings.Load

/-!
# Variables in values

A reference is a name between `$` with an opening brace and a closing one; the value of the variable takes its place.
Main statement: variables can be put into a value unless it has a reference that cannot be looked up, nothing but
references changes then, and it makes no difference whether mappings are merged before or after that.
-/

namespace ScenarioRunner.Settings

open ScenarioRunner.Text

set_option autoImplicit false

/-! ## References -/

def referenceText (name : List Char) : String :=
  String.ofList ('$' :: '\x7b' :: (name ++ ['\x7d']))

def referencePoints (name : List CodePoint) : List CodePoint :=
  .char '$' :: .char '\x7b' :: (name ++ [.char '\x7d'])

theorem dropLast_eq_some_iff {α : Type} [DecidableEq α] (s name : List α) (c : α) :
    (if s.getLast? == some c then some s.dropLast else none) = some name ↔ s = name ++ [c] := by
  constructor
  · intro h
    split at h
    · next hLast =>
      obtain ⟨first, rfl⟩ := List.getLast?_eq_some_iff.mp (beq_iff_eq.mp hLast)
      rw [List.dropLast_concat, Option.some.injEq] at h
      rw [h]
    · cases h
  · rintro rfl
    simp

theorem reference?_eq_some_iff (s name : String) : reference? s = some name ↔ s = referenceText name.toList := by
  rw [reference?, referenceText, ← String.toList_inj, String.toList_ofList]
  split
  · next rest hs =>
    rw [hs, List.cons.injEq, List.cons.injEq, ← dropLast_eq_some_iff]
    split
    · simp [← String.toList_inj]
    · simp
  · next hNone =>
    constructor
    · intro h
      cases h
    · intro h
      exact absurd h (hNone _)

theorem halvedReference?_eq_some_iff (points name : List CodePoint) :
    halvedReference? points = some name ↔ points = referencePoints name := by
  rw [halvedReference?.eq_def, referencePoints]
  split
  · next rest =>
    rw [List.cons.injEq, List.cons.injEq, ← dropLast_eq_some_iff]
    simp
  · next hNone =>
    constructor
    · intro h
      cases h
    · intro h
      exact absurd h (hNone _)

/-- What becomes of a scalar: a reference gives way to the value of its variable, and all else stays. -/
inductive Scalar.Becomes (env : Environment) : Scalar → Scalar → Prop
  | plain {s : Scalar} (hText : ∀ name, s ≠ .text (referenceText name))
      (hHalved : ∀ name, s ≠ .halved (referencePoints name)) : Becomes env s s
  | known {name : List Char} {value : String} (h : env.get? (String.ofList name) = some value) :
      Becomes env (.text (referenceText name)) (.text value)
  | unknown {name : List Char} (h : env.get? (String.ofList name) = none) :
      Becomes env (.text (referenceText name)) (.text (referenceText name))
  /-- A name with half of a character in it is looked up by its bytes. -/
  | knownBytes {name : List CodePoint} {bytes : List UInt8} {whole : List Char} {value : String}
      (hBytes : systemBytes? name = some bytes) (hWhole : decodeUtf8? bytes = some whole)
      (h : env.get? (String.ofList whole) = some value) :
      Becomes env (.halved (referencePoints name)) (.text value)
  | unknownBytes {name : List CodePoint}
      (h : ∀ bytes whole, systemBytes? name = some bytes → decodeUtf8? bytes = some whole →
        env.get? (String.ofList whole) = none) :
      Becomes env (.halved (referencePoints name)) (.halved (referencePoints name))

def Scalar.IsUnreadable (s : Scalar) : Prop :=
  ∃ name, s = .halved (referencePoints name) ∧ systemBytes? name = none

theorem isHalvedReference_iff (points : List CodePoint) :
    isHalvedReference points = true ↔ (Scalar.halved points).IsUnreadable := by
  rw [isHalvedReference, Option.any_eq_true]
  simp only [halvedReference?_eq_some_iff, Option.isNone_iff_eq_none, Scalar.IsUnreadable, Scalar.halved.injEq]

def Scalar.substituted (env : Environment) : Scalar → Scalar
  | .text s => .text (substituteText env s)
  | .halved points => substituteHalved env points
  | s => s

theorem Value.substitute_scalar (env : Environment) (s : Scalar) :
    (Value.scalar s).substitute env = .scalar (s.substituted env) := by
  cases s <;> rfl

theorem Scalar.becomes_substituted (env : Environment) (s : Scalar) : s.Becomes env (s.substituted env) := by
  cases s with
  | text s =>
    rw [Scalar.substituted, substituteText]
    cases hName : reference? s with
    | none =>
      refine .plain (fun name hs => ?_) nofun
      cases hs
      rw [(reference?_eq_some_iff _ (String.ofList name)).mpr (by rw [String.toList_ofList])] at hName
      cases hName
    | some name =>
      obtain rfl := (reference?_eq_some_iff s name).mp hName
      dsimp only
      cases hValue : env.get? name with
      | none => exact .unknown (by rwa [String.ofList_toList])
      | some value => exact .known (by rwa [String.ofList_toList])
  | halved points =>
    rw [Scalar.substituted, substituteHalved]
    cases hName : halvedReference? points with
    | none =>
      refine .plain nofun fun name hs => ?_
      cases hs
      rw [(halvedReference?_eq_some_iff _ name).mpr rfl] at hName
      cases hName
    | some name =>
      obtain rfl := (halvedReference?_eq_some_iff points name).mp hName
      dsimp only [Option.bind_some]
      split
      · next value hValue =>
        obtain ⟨whole, hWhole, hValue⟩ := Option.bind_eq_some_iff.mp hValue
        obtain ⟨bytes, hBytes, hWhole⟩ := Option.bind_eq_some_iff.mp hWhole
        exact .knownBytes hBytes hWhole hValue
      · next hNone =>
        refine .unknownBytes fun bytes whole hBytes hWhole => ?_
        rw [hBytes, Option.bind_some, hWhole, Option.bind_some] at hNone
        exact hNone
  | _ => exact .plain nofun nofun

/-! ## References in a value -/

inductive Scalar.OccursIn (s : Scalar) : Value → Prop
  | scalar : OccursIn s (.scalar s)
  | list {items : List Value} {v : Value} (hMem : v ∈ items) (h : OccursIn s v) : OccursIn s (.list items)
  | mapping {entries : Entries} {entry : Scalar × Value} (hMem : entry ∈ entries) (h : OccursIn s entry.2) :
      OccursIn s (.mapping entries)

theorem Value.isWhole_iff (v : Value) : v.IsWhole ↔ ∀ s : Scalar, s.OccursIn v → ¬s.IsUnreadable := by
  induction v using Value.induction with
  | scalar s =>
    have hOnly : (∀ t : Scalar, t.OccursIn (.scalar s) → ¬t.IsUnreadable) ↔ ¬s.IsUnreadable :=
      ⟨fun h => h s .scalar, fun h t ht => by cases ht; exact h⟩
    rw [hOnly]
    cases s with
    | halved points => rw [← isHalvedReference_iff, Bool.not_eq_true]; rfl
    | _ => exact iff_of_true rfl nofun
  | list items ih =>
    rw [Value.isWhole_list_iff]
    constructor
    · rintro h s (_ | ⟨hMem, hs⟩)
      exact (ih _ hMem).mp (h _ hMem) s hs
    · intro h v hv
      exact (ih v hv).mpr fun s hs => h s (.list hv hs)
  | mapping entries ih =>
    rw [Value.isWhole_mapping_iff]
    constructor
    · rintro h s (_ | _ | ⟨hMem, hs⟩)
      exact (ih _ hMem).mp (h _ hMem) s hs
    · intro h entry hEntry
      exact (ih entry hEntry).mpr fun s hs => h s (.mapping hEntry hs)

/-! ## Places after the substitution -/

theorem substituteItems_eq_map (env : Environment) (items : List Value) :
    substituteItems env items = items.map (Value.substitute env) := by
  induction items with
  | nil => rfl
  | cons v items ih => rw [substituteItems, ih, List.map_cons]

theorem substituteEntries_eq_map (env : Environment) (entries : Entries) :
    substituteEntries env entries = entries.map fun entry => (entry.1, entry.2.substitute env) := by
  induction entries with
  | nil => rfl
  | cons entry entries ih => rw [substituteEntries, ih, List.map_cons]

theorem Value.step?_substitute (env : Environment) (v : Value) (step : Step) :
    (v.substitute env).step? step = (v.step? step).map (Value.substitute env) := by
  cases v with
  | scalar s => rw [Value.substitute_scalar]; rfl
  | list items =>
    cases step with
    | key k => rfl
    | item i => rw [Value.substitute, Value.step?, substituteItems_eq_map, List.getElem?_map, Value.step?]
  | mapping entries =>
    cases step with
    | key k => exact valueOf?_substituteEntries env entries k
    | item i => rfl

theorem Value.at?_substitute (env : Environment) (v : Value) (steps : List Step) :
    (v.substitute env).at? steps = (v.at? steps).map (Value.substitute env) := by
  induction steps generalizing v with
  | nil => rfl
  | cons step steps ih =>
    rw [Value.at?_cons, Value.at?_cons, Value.step?_substitute]
    cases v.step? step with
    | none => rfl
    | some w => exact ih w

/-- The second value is the first one with its references replaced, and of the same form. -/
structure IsSubstitution (env : Environment) (v w : Value) : Prop where
  mapping : ∀ steps entries, v.at? steps = some (.mapping entries) →
    ∃ others, w.at? steps = some (.mapping others) ∧ others.map Prod.fst = entries.map Prod.fst
  list : ∀ steps items, v.at? steps = some (.list items) →
    ∃ others, w.at? steps = some (.list others) ∧ others.length = items.length
  scalar : ∀ steps s, v.at? steps = some (.scalar s) → ∃ t, w.at? steps = some (.scalar t) ∧ s.Becomes env t
  nothing : ∀ steps, v.at? steps = none → w.at? steps = none

theorem isSubstitution_substitute (env : Environment) (v : Value) : IsSubstitution env v (v.substitute env) := by
  have hAt : ∀ {steps w}, v.at? steps = some w → (v.substitute env).at? steps = some (w.substitute env) := by
    intro steps w hw
    rw [Value.at?_substitute, hw, Option.map_some]
  constructor
  · intro steps entries h
    refine ⟨_, hAt h, ?_⟩
    rw [substituteEntries_eq_map, List.map_map]
    rfl
  · intro steps items h
    refine ⟨_, hAt h, ?_⟩
    rw [substituteItems_eq_map, List.length_map]
  · intro steps s h
    refine ⟨s.substituted env, ?_, s.becomes_substituted env⟩
    rw [hAt h, Value.substitute_scalar]
  · intro steps h
    rw [Value.at?_substitute, h, Option.map_none]

/-! ## Merging before or after -/

theorem Value.isMapping_substitute (env : Environment) (v : Value) : (v.substitute env).isMapping = v.isMapping := by
  cases v with
  | scalar s => rw [Value.substitute_scalar]; rfl
  | list items => rfl
  | mapping entries => rfl

theorem newEntries_substitute (env : Environment) (lower upper : Entries) :
    newEntries (substituteEntries env lower) (substituteEntries env upper) =
      substituteEntries env (newEntries lower upper) := by
  rw [newEntries, newEntries, substituteEntries_eq_map env upper, substituteEntries_eq_map env (upper.filter _),
    List.filter_map]
  congr 1
  refine List.filter_congr fun entry _ => ?_
  rw [Function.comp_apply, valueOf?_substituteEntries, Option.isNone_map]

theorem substituteEntries_mergeEntries {env : Environment} {lower : Entries} (upper : Entries)
    (h : ∀ entry ∈ lower, ∀ w, (entry.2.merge w).substitute env = (entry.2.substitute env).merge (w.substitute env)) :
    substituteEntries env (mergeEntries lower upper) =
      mergeEntries (substituteEntries env lower) (substituteEntries env upper) := by
  rw [mergeEntries_eq_layer, mergeEntries_eq_layer, layer, layer, newEntries_substitute,
    substituteEntries_eq_map env (_ ++ _), List.map_append, ← substituteEntries_eq_map env (newEntries lower upper),
    substituteEntries_eq_map env lower, List.map_map, List.map_map]
  congr 1
  refine List.map_congr_left fun entry hEntry => ?_
  simp only [Function.comp_apply, valueOf?_substituteEntries]
  cases valueOf? upper entry.1 with
  | none => rfl
  | some w => rw [Option.map_some, h entry hEntry w]

/-- Substitution never makes a mapping, nor anything else of a mapping, so that the same values are merged. -/
theorem Value.substitute_merge (env : Environment) (u v : Value) :
    (u.merge v).substitute env = (u.substitute env).merge (v.substitute env) := by
  induction u using Value.induction generalizing v with
  | scalar s => rw [Value.not_isMapping_merge rfl, Value.substitute_scalar, Value.not_isMapping_merge rfl]
  | list items ih => rw [Value.not_isMapping_merge rfl, Value.not_isMapping_merge rfl]
  | mapping lower ih =>
    cases hMapping : v.isMapping with
    | false =>
      rw [Value.merge_of_not_isMapping _ hMapping,
        Value.merge_of_not_isMapping _ (v.isMapping_substitute env |>.trans hMapping)]
    | true =>
      obtain ⟨upper, rfl⟩ := v.isMapping_iff.mp hMapping
      exact congrArg Value.mapping (substituteEntries_mergeEntries upper ih)

/-! ## Substitution where all references can be looked up -/

def Value.substituted (env : Environment) (v : Value) : Except Fault Value :=
  (Loaded.substitute ⟨v, env⟩).2

theorem Value.substituted_eq_ok_iff (env : Environment) (v w : Value) :
    v.substituted env = .ok w ↔ v.IsWhole ∧ v.substitute env = w := by
  rw [Value.substituted, Loaded.substitute, Value.IsWhole]
  cases v.hasHalvedReference with
  | true => simp
  | false => simp

/-- Substitution fails for a reference that cannot be looked up, and for nothing else. Otherwise it replaces the
references alone, and gives of merged mappings what merging gives after it. -/
theorem substitution_and_merge (env : Environment) :
    (∀ v : Value, (∃ w, v.substituted env = .ok w) ↔ ∀ s : Scalar, s.OccursIn v → ¬s.IsUnreadable) ∧
      (∀ v w : Value, v.substituted env = .ok w → IsSubstitution env v w) ∧
      ∀ lower upper newLower newUpper : Entries, (Value.mapping lower).substituted env = .ok (.mapping newLower) →
        (Value.mapping upper).substituted env = .ok (.mapping newUpper) →
        (Value.mapping (mergeEntries lower upper)).substituted env =
          .ok (.mapping (mergeEntries newLower newUpper)) := by
  refine ⟨fun v => ?_, fun v w h => ?_, fun lower upper newLower newUpper hLower hUpper => ?_⟩
  · simp only [Value.substituted_eq_ok_iff, exists_and_left, exists_eq', and_true, v.isWhole_iff]
  · obtain ⟨-, rfl⟩ := (Value.substituted_eq_ok_iff env v w).mp h
    exact isSubstitution_substitute env v
  · obtain ⟨hWholeLower, hNewLower⟩ := (Value.substituted_eq_ok_iff env _ _).mp hLower
    obtain ⟨hWholeUpper, hNewUpper⟩ := (Value.substituted_eq_ok_iff env _ _).mp hUpper
    refine (Value.substituted_eq_ok_iff env _ _).mpr ⟨Value.IsWhole.merge _ _ hWholeLower hWholeUpper, ?_⟩
    refine (Value.substitute_merge env (.mapping lower) (.mapping upper)).trans ?_
    rw [hNewLower, hNewUpper]
    rfl

/-- Two mappings with one section, in which the first variable is set and the second one is not. -/
def hostBelow : Entries :=
  [(.text "site", .mapping [(.text "url", .text "$\x7bHOST\x7d"), (.text "port", .scalar (.int 80))])]

def hostsAbove : Entries :=
  [(.text "site", .mapping [(.text "others", .list [.text "$\x7bHOST\x7d", .text "$\x7bNONE\x7d"])])]

theorem substituted_merge_of_hosts :
    IsSubstitution [("HOST", "local")] (.mapping hostBelow)
        (.mapping [(.text "site", .mapping [(.text "url", .text "local"), (.text "port", .scalar (.int 80))])]) ∧
      (Value.mapping (mergeEntries hostBelow hostsAbove)).substituted [("HOST", "local")] =
        .ok (.mapping [(.text "site", .mapping [(.text "url", .text "local"), (.text "port", .scalar (.int 80)),
          (.text "others", .list [.text "local", .text "$\x7bNONE\x7d"])])]) := by
  obtain ⟨-, hSubstitution, hMerge⟩ := substitution_and_merge [("HOST", "local")]
  exact ⟨hSubstitution _ _ rfl, hMerge hostBelow hostsAbove _ _ rfl rfl⟩

def halvedNote : Entries :=
  [(.text "note", .scalar (.halved (referencePoints [.surrogate 0xD800])))]

/-- The reference does not stay as it is, though no variable has its name. -/
theorem not_forall_substituted_of_half :
    ¬ ∀ (env : Environment) (v : Value), ∃ w, v.substituted env = .ok w ∧ IsSubstitution env v w := by
  intro h
  obtain ⟨w, hOk, -⟩ := h [] (.mapping halvedNote)
  have hFault : (Value.mapping halvedNote).substituted [] = .error .halfInVariableName := rfl
  rw [hFault] at hOk
  cases hOk

end ScenarioRunner.Settings
