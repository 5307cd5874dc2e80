import Mathlib.Tactic.Common
import ScenarioRunner.Proofs.Settings.Places
import ScenarioRunner.Proofs.Settings.Sharing

/-!
# Merging at every depth

Main statement: what a merged mapping has at the end of a path of keys is determined by what the two mappings have
there, and by whether a value of the upper one that is no mapping stands on the way. Merging the upper mapping once more
changes nothing.
-/

namespace ScenarioRunner.Settings

set_option autoImplicit false

/-! ## Paths through merged values -/

/-- On the way to the end of the path stands a value that is no mapping. -/
def Value.Blocks (v : Value) (keys : List Scalar) : Prop :=
  ∃ before w, before <+: keys ∧ before ≠ keys ∧ v.atKeys? before = some w ∧ w.isMapping = false

theorem Value.not_blocks_nil (v : Value) : ¬v.Blocks [] := by
  rintro ⟨before, w, hBefore, hNe, -⟩
  exact hNe (List.prefix_nil.mp hBefore)

theorem Value.blocks_of_not_isMapping {v : Value} (h : v.isMapping = false) (key : Scalar) (keys : List Scalar) :
    v.Blocks (key :: keys) :=
  ⟨[], v, List.nil_prefix, List.cons_ne_nil key keys |>.symm, rfl, h⟩

theorem Value.blocks_cons_iff (entries : Entries) (key : Scalar) (keys : List Scalar) :
    (Value.mapping entries).Blocks (key :: keys) ↔ ∃ w, valueOf? entries key = some w ∧ w.Blocks keys := by
  constructor
  · rintro ⟨before, w, hBefore, hNe, hAt, hPlain⟩
    cases before with
    | nil =>
      cases hAt
      cases hPlain
    | cons first before =>
      obtain ⟨rfl, hRest⟩ := List.cons_prefix_cons.mp hBefore
      obtain ⟨x, hStep, hEnd⟩ := Option.bind_eq_some_iff.mp hAt
      exact ⟨x, hStep, before, w, hRest, fun hEq => hNe (by rw [hEq]), hEnd, hPlain⟩
  · rintro ⟨x, hStep, before, w, hBefore, hNe, hAt, hPlain⟩
    refine ⟨key :: before, w, List.cons_prefix_cons.mpr ⟨rfl, hBefore⟩, fun hEq => hNe (List.cons.inj hEq).2, ?_, hPlain⟩
    rw [Value.atKeys?_cons, Value.step?, hStep]
    exact hAt

/-- Nothing is found beyond a value that is no mapping. -/
theorem Value.Blocks.atKeys?_eq_none {v : Value} {keys : List Scalar} (h : v.Blocks keys) : v.atKeys? keys = none := by
  induction keys generalizing v with
  | nil => exact absurd h v.not_blocks_nil
  | cons key keys ih =>
    rw [Value.atKeys?_cons]
    cases hMapping : v.isMapping with
    | false => rw [Value.step?_key_of_not_isMapping hMapping, Option.bind_none]
    | true =>
      obtain ⟨entries, rfl⟩ := v.isMapping_iff.mp hMapping
      obtain ⟨w, hStep, hBlocks⟩ := (Value.blocks_cons_iff entries key keys).mp h
      rw [Value.step?, hStep, Option.bind_some, ih hBlocks]

theorem layered_none_left (combine : Value → Value → Value) (w : Option Value) : layered combine none w = w := by
  cases w <;> rfl

theorem layered_none_right (combine : Value → Value → Value) (v : Option Value) : layered combine v none = v := by
  cases v <;> rfl

theorem Value.step?_merge (u : Value) (upper : Entries) (key : Scalar) :
    (u.merge (.mapping upper)).step? (.key key) = layered Value.merge (u.step? (.key key)) (valueOf? upper key) := by
  cases hMapping : u.isMapping with
  | false =>
    rw [Value.not_isMapping_merge hMapping, Value.step?_key_of_not_isMapping hMapping, layered_none_left, Value.step?]
  | true =>
    obtain ⟨lower, rfl⟩ := u.isMapping_iff.mp hMapping
    exact valueOf?_mergeEntries lower upper key

open Classical in
theorem Value.atKeys?_merge (u v : Value) (keys : List Scalar) :
    (u.merge v).atKeys? keys =
      if v.Blocks keys then none else layered Value.merge (u.atKeys? keys) (v.atKeys? keys) := by
  induction keys generalizing u v with
  | nil =>
    rw [if_neg v.not_blocks_nil]
    rfl
  | cons key keys ih =>
    cases hMapping : v.isMapping with
    | false =>
      have hBlocks := Value.blocks_of_not_isMapping hMapping key keys
      rw [if_pos hBlocks, Value.merge_of_not_isMapping _ hMapping, hBlocks.atKeys?_eq_none]
    | true =>
      obtain ⟨upper, rfl⟩ := v.isMapping_iff.mp hMapping
      have hBlocks := Value.blocks_cons_iff upper key keys
      rw [Value.atKeys?_cons, Value.step?_merge, Value.atKeys?_cons, Value.atKeys?_cons, Value.step?]
      cases hUpper : valueOf? upper key with
      | none =>
        rw [hUpper] at hBlocks
        rw [if_neg fun h => by simpa using hBlocks.mp h, Option.bind_none, layered_none_right, layered_none_right]
      | some w =>
        simp only [hUpper, Option.some.injEq, exists_eq_left'] at hBlocks
        simp only [hBlocks]
        cases u.step? (.key key) with
        | some x => exact ih x w
        | none =>
          rw [layered_none_left, Option.bind_none, layered_none_left]
          split_ifs with hBlocked
          · exact hBlocked.atKeys?_eq_none
          · rfl

/-! ## Merging twice -/

inductive Value.HasUniqueKeys : Value → Prop
  | scalar (s : Scalar) : HasUniqueKeys (.scalar s)
  | list {items : List Value} (h : ∀ v ∈ items, v.HasUniqueKeys) : HasUniqueKeys (.list items)
  | mapping {entries : Entries} (hKeys : UniqueKeys entries) (h : ∀ entry ∈ entries, entry.2.HasUniqueKeys) :
      HasUniqueKeys (.mapping entries)

/-- The values of settings files have each key once, at every depth. -/
theorem SharedValue.HasUniqueKeys.value {v : SharedValue} (h : v.HasUniqueKeys) : v.value.HasUniqueKeys := by
  induction h with
  | scalar s => exact .scalar s
  | @list items h ih =>
    rw [SharedValue.value, SharedValue.updated, updatedItems_eq_map]
    exact .list (List.forall_mem_map.mpr ih)
  | @mapping number entries hKeys h ih =>
    rw [SharedValue.value_mapping]
    refine .mapping (hKeys.updatedEntries []) ?_
    rw [updatedEntries_eq_map]
    exact List.forall_mem_map.mpr ih

theorem newEntries_eq_nil {lower upper : Entries} (h : ∀ entry ∈ upper, (valueOf? lower entry.1).isSome = true) :
    newEntries lower upper = [] := by
  rw [newEntries, List.filter_eq_nil_iff]
  intro entry hEntry
  rw [Bool.not_eq_true, ← Option.not_isSome, h entry hEntry]
  rfl

/-- Entries that are merged with themselves, or with what they have been merged with, stay as they are. -/
theorem mergeEntries_eq_self {entries upper : Entries}
    (hValues : ∀ entry ∈ entries, ∀ w ∈ valueOf? upper entry.1, entry.2.merge w = entry.2)
    (hKeys : ∀ entry ∈ upper, (valueOf? entries entry.1).isSome = true) : mergeEntries entries upper = entries := by
  rw [mergeEntries_eq_layer, layer, newEntries_eq_nil hKeys, List.append_nil]
  conv_rhs => rw [← List.map_id entries]
  refine List.map_congr_left fun entry hEntry => ?_
  cases hUpper : valueOf? upper entry.1 with
  | none => rfl
  | some w =>
    dsimp only
    rw [hValues entry hEntry w hUpper]
    rfl

theorem Value.HasUniqueKeys.merge_self {v : Value} (h : v.HasUniqueKeys) : v.merge v = v := by
  induction h with
  | scalar s => rfl
  | list h => rfl
  | @mapping entries hKeys h ih =>
    refine congrArg Value.mapping (mergeEntries_eq_self ?_ ?_)
    · intro entry hEntry w hw
      rw [hKeys.valueOf?_of_mem hEntry] at hw
      cases hw
      exact ih entry hEntry
    · intro entry hEntry
      rw [hKeys.valueOf?_of_mem hEntry]
      rfl

theorem isSome_valueOf?_mergeEntries (lower : Entries) {upper : Entries} (hKeys : UniqueKeys upper)
    {entry : Scalar × Value} (hEntry : entry ∈ upper) :
    (valueOf? (mergeEntries lower upper) entry.1).isSome = true := by
  rw [valueOf?_mergeEntries, isSome_layered, hKeys.valueOf?_of_mem hEntry, Option.isSome_some, Bool.or_true]

/-- An entry of the merged mapping is new, or has the merged value of its key. -/
theorem mem_mergeEntries {lower upper : Entries} {entry : Scalar × Value} (h : entry ∈ mergeEntries lower upper) :
    entry ∈ upper ∨ ∃ v : Value, ∀ w ∈ valueOf? upper entry.1, entry.2 = v.merge w := by
  rw [mergeEntries_eq_layer, layer, List.mem_append] at h
  rcases h with h | h
  · obtain ⟨old, -, rfl⟩ := List.mem_map.mp h
    refine .inr ⟨old.2, fun w hw => ?_⟩
    dsimp only at hw ⊢
    rw [Option.mem_def.mp hw]
  · exact .inl (List.mem_filter.mp h).1

theorem Value.HasUniqueKeys.merge_merge {v : Value} (h : v.HasUniqueKeys) (u : Value) :
    (u.merge v).merge v = u.merge v := by
  induction h generalizing u with
  | scalar s => rw [u.merge_of_not_isMapping rfl, Value.merge_of_not_isMapping _ rfl]
  | list h => rw [u.merge_of_not_isMapping rfl, Value.merge_of_not_isMapping _ rfl]
  | @mapping upper hKeys h ih =>
    cases hMapping : u.isMapping with
    | false =>
      rw [Value.not_isMapping_merge hMapping]
      exact (Value.HasUniqueKeys.mapping hKeys h).merge_self
    | true =>
      obtain ⟨lower, rfl⟩ := u.isMapping_iff.mp hMapping
      refine congrArg Value.mapping (mergeEntries_eq_self ?_ fun entry hEntry =>
        isSome_valueOf?_mergeEntries lower hKeys hEntry)
      intro entry hEntry w hw
      rcases mem_mergeEntries hEntry with hNew | ⟨old, hOld⟩
      · rw [hKeys.valueOf?_of_mem hNew] at hw
        cases hw
        exact (h entry hNew).merge_self
      · obtain ⟨other, hOther, -, rfl⟩ := mem_of_valueOf?_eq_some (Option.mem_def.mp hw)
        rw [hOld _ hw]
        exact ih other hOther old

/-! ## The merged mapping -/

/-- New are the keys that are none of the lower ones. -/
theorem keys_mergeEntries (lower upper : Entries) :
    (mergeEntries lower upper).map Prod.fst =
      lower.map Prod.fst ++
        (upper.map Prod.fst).filter fun key => !(lower.map Prod.fst).any fun other => other.isSameKey key := by
  have hNew : ∀ key, (valueOf? lower key).isNone = !(lower.map Prod.fst).any fun other => other.isSameKey key := by
    intro key
    rw [valueOf?, Option.isNone_map, List.any_map, ← Option.not_isSome, List.isSome_find?]
    rfl
  rw [mergeEntries_eq_layer, layer, List.map_append, List.map_map, newEntries, List.filter_map]
  congr 2
  refine List.filter_congr fun entry _ => ?_
  rw [hNew, Function.comp_apply]

/-- One mapping laid over another one, place by place. -/
structure IsDeepMerge (merged lower upper : Entries) : Prop where
  /-- An upper value that is no mapping takes the place. -/
  plain : ∀ keys w, (Value.mapping upper).atKeys? keys = some w → w.isMapping = false →
    (Value.mapping merged).atKeys? keys = some w
  /-- Two mappings at one place are merged. -/
  both : ∀ keys x w, (Value.mapping lower).atKeys? keys = some (.mapping x) →
    (Value.mapping upper).atKeys? keys = some (.mapping w) →
    (Value.mapping merged).atKeys? keys = some (.mapping (mergeEntries x w))
  /-- An upper mapping takes the place of anything but a mapping. -/
  upperOnly : ∀ keys w, (Value.mapping upper).atKeys? keys = some (.mapping w) →
    (∀ x, (Value.mapping lower).atKeys? keys ≠ some (.mapping x)) →
    (Value.mapping merged).atKeys? keys = some (.mapping w)
  /-- Where the upper mapping has nothing, the lower one shows through, -/
  below : ∀ keys, (Value.mapping upper).atKeys? keys = none → ¬(Value.mapping upper).Blocks keys →
    (Value.mapping merged).atKeys? keys = (Value.mapping lower).atKeys? keys
  /-- unless an upper value stands on the way. -/
  blocked : ∀ keys, (Value.mapping upper).atKeys? keys = none → (Value.mapping upper).Blocks keys →
    (Value.mapping merged).atKeys? keys = none
  keys_eq : merged.map Prod.fst =
    lower.map Prod.fst ++
      (upper.map Prod.fst).filter fun key => !(lower.map Prod.fst).any fun other => other.isSameKey key
  again : mergeEntries merged upper = merged

theorem isDeepMerge_mergeEntries (lower : Entries) {upper : Entries} (h : (Value.mapping upper).HasUniqueKeys) :
    IsDeepMerge (mergeEntries lower upper) lower upper := by
  have hAt := Value.atKeys?_merge (.mapping lower) (.mapping upper)
  have hOpen : ∀ {keys w}, (Value.mapping upper).atKeys? keys = some w → ¬(Value.mapping upper).Blocks keys := by
    intro keys w hw hBlocks
    rw [hBlocks.atKeys?_eq_none] at hw
    cases hw
  constructor
  · intro keys w hw hPlain
    refine (hAt keys).trans ?_
    rw [if_neg (hOpen hw), hw]
    cases (Value.mapping lower).atKeys? keys with
    | none => rfl
    | some x => exact congrArg some (x.merge_of_not_isMapping hPlain)
  · intro keys x w hx hw
    refine (hAt keys).trans ?_
    rw [if_neg (hOpen hw), hx, hw]
    rfl
  · intro keys w hw hNone
    refine (hAt keys).trans ?_
    rw [if_neg (hOpen hw), hw]
    cases hx : (Value.mapping lower).atKeys? keys with
    | none => rfl
    | some x =>
      have hPlain : x.isMapping = false := by
        rw [Bool.eq_false_iff]
        intro hMapping
        obtain ⟨entries, rfl⟩ := x.isMapping_iff.mp hMapping
        exact hNone entries hx
      exact congrArg some (Value.not_isMapping_merge hPlain _)
  · intro keys hNone hBlocks
    refine (hAt keys).trans ?_
    rw [if_neg hBlocks, hNone, layered_none_right]
  · intro keys _ hBlocks
    exact (hAt keys).trans (if_pos hBlocks)
  · exact keys_mergeEntries lower upper
  · exact Value.mapping.inj (h.merge_merge (.mapping lower))

def clashingLower : Entries :=
  [(.text "a", .mapping [(.text "x", .scalar (.int 1)), (.text "y", .mapping [(.text "p", .scalar (.int 1))])]),
    (.text "b", .scalar (.int 2)), (.text "c", .mapping [(.text "q", .scalar (.int 5))])]

def clashingUpper : Entries :=
  [(.text "c", .scalar (.int 7)),
    (.text "a", .mapping [(.text "y", .mapping [(.text "r", .scalar (.int 2))]),
      (.text "x", .mapping [(.text "s", .scalar (.int 3))])]),
    (.text "d", .list [])]

/-- Mappings meet mappings and other values, on both sides and at two depths. -/
theorem isDeepMerge_of_clashes :
    (Value.mapping clashingUpper).HasUniqueKeys ∧
      IsDeepMerge (mergeEntries clashingLower clashingUpper) clashingLower clashingUpper ∧
      (Value.mapping (mergeEntries clashingLower clashingUpper)).atKeys? [.text "a", .text "y", .text "p"] =
        some (.scalar (.int 1)) ∧
      (Value.mapping (mergeEntries clashingLower clashingUpper)).atKeys? [.text "c", .text "q"] = none ∧
      (mergeEntries clashingLower clashingUpper).map Prod.fst = [.text "a", .text "b", .text "c", .text "d"] := by
  have hNested : ∀ (key : Scalar) (n : Int), (Value.mapping [(key, .scalar (.int n))]).HasUniqueKeys := fun key n =>
    .mapping (List.pairwise_singleton _ key) (List.forall_mem_singleton.mpr (.scalar _))
  have hSection : (Value.mapping [(.text "y", .mapping [(.text "r", .scalar (.int 2))]),
      (.text "x", .mapping [(.text "s", .scalar (.int 3))])]).HasUniqueKeys :=
    .mapping (by decide) (List.forall_mem_cons.mpr ⟨hNested _ 2, List.forall_mem_singleton.mpr (hNested _ 3)⟩)
  have hKeys : (Value.mapping clashingUpper).HasUniqueKeys :=
    .mapping (by decide) (List.forall_mem_cons.mpr ⟨.scalar _, List.forall_mem_cons.mpr ⟨hSection,
      List.forall_mem_singleton.mpr (.list (List.forall_mem_nil _))⟩⟩)
  have hMerge := isDeepMerge_mergeEntries clashingLower hKeys
  have hOpen : ¬(Value.mapping clashingUpper).Blocks [.text "a", .text "y", .text "p"] := by
    rw [clashingUpper, Value.blocks_cons_iff]
    rintro ⟨_, ⟨⟩, h⟩
    obtain ⟨_, ⟨⟩, h⟩ := (Value.blocks_cons_iff _ _ _).mp h
    obtain ⟨_, ⟨⟩, -⟩ := (Value.blocks_cons_iff _ _ _).mp h
  have hBlocks : (Value.mapping clashingUpper).Blocks [.text "c", .text "q"] :=
    ⟨[.text "c"], .scalar (.int 7), ⟨[.text "q"], rfl⟩, by decide, rfl, rfl⟩
  exact ⟨hKeys, hMerge, hMerge.below _ rfl hOpen, hMerge.blocked _ rfl hBlocks, hMerge.keys_eq.trans (by decide)⟩

end ScenarioRunner.Settings
