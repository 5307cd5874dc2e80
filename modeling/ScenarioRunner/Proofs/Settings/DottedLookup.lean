import ScenarioRunner.Proofs.Settings.Places
import ScenarioRunner.Proofs.Text.Lines

/-!
# Looking up dotted names

The lookup of a dotted name goes from mapping to mapping by its keys. It leads to a value, which may be null, or it
strays: at a value that is no mapping, or in a mapping without the next key. Main statement: the lookup of two names with
a dot between them goes on with the second name where that of the first one ends, and gives the default if that one
strays.
-/

namespace ScenarioRunner.Settings

open ScenarioRunner.Text

set_option autoImplicit false

/-! ## Dotted names -/

/-- The dots of a name stand between its keys; a key may be empty. -/
structure IsPathOf (dotted : String) (path : List String) : Prop where
  ne_nil : path ≠ []
  notMem : ∀ key ∈ path, '.' ∉ key.toList
  joined : ".".intercalate path = dotted

theorem isPathOf_iff {dotted : String} {path : List String} : IsPathOf dotted path ↔ path = pathOf dotted := by
  constructor
  · intro h
    have hJoined : ['.'].intercalate (path.map String.toList) = dotted.toList := by
      rw [← h.joined, String.toList_intercalate]
      rfl
    have hPieces : pieces '.' dotted.toList = path.map String.toList := by
      rw [← hJoined]
      apply pieces_intercalate
      · simpa using h.ne_nil
      · simpa using h.notMem
    rw [pathOf, hPieces, List.map_map]
    simp [Function.comp_def]
  · rintro rfl
    constructor
    · simpa [pathOf] using pieces_ne_nil '.' dotted.toList
    · intro key hKey
      obtain ⟨piece, hPiece, rfl⟩ := List.mem_map.mp hKey
      rw [String.toList_ofList]
      exact (of_mem_pieces hPiece).1
    · apply String.toList_injective
      rw [String.toList_intercalate, pathOf, List.map_map]
      simpa [Function.comp_def] using intercalate_pieces '.' dotted.toList

theorem pathOf_append_dot (a b : String) : pathOf (a ++ "." ++ b) = pathOf a ++ pathOf b := by
  have hText : (a ++ "." ++ b).toList = a.toList ++ '.' :: b.toList := by simp
  rw [pathOf, hText, pieces_append_cons, List.map_append]
  rfl

/-! ## Keys of mappings -/

/-- The first entry with the key, of which a mapping has no more than one. -/
def Holds (entries : Entries) (key : String) (v : Value) : Prop :=
  ∃ before after, entries = before ++ (.text key, v) :: after ∧ ∀ entry ∈ before, entry.1 ≠ .text key

theorem valueOf?_text_eq_some_iff {entries : Entries} {key : String} {v : Value} :
    valueOf? entries (.text key) = some v ↔ Holds entries key v := by
  rw [valueOf?, Option.map_eq_some_iff]
  constructor
  · rintro ⟨⟨found, w⟩, hFind, rfl⟩
    obtain ⟨hKey, before, after, rfl, hBefore⟩ := List.find?_eq_some_iff_append.mp hFind
    obtain rfl := (Scalar.isSameKey_text_iff found key).mp hKey
    refine ⟨before, after, rfl, fun entry hEntry hText => ?_⟩
    have hOther := hBefore entry hEntry
    rw [(Scalar.isSameKey_text_iff entry.1 key).mpr hText] at hOther
    cases hOther
  · rintro ⟨before, after, rfl, hBefore⟩
    refine ⟨(.text key, v), List.find?_eq_some_iff_append.mpr ⟨?_, before, after, rfl, ?_⟩, rfl⟩
    · exact (Scalar.isSameKey_text_iff _ key).mpr rfl
    · intro entry hEntry
      have hOther := hBefore entry hEntry
      rw [ne_eq, ← Scalar.isSameKey_text_iff] at hOther
      simpa using hOther

theorem valueOf?_text_eq_none_iff {entries : Entries} {key : String} :
    valueOf? entries (.text key) = none ↔ ∀ entry ∈ entries, entry.1 ≠ .text key := by
  rw [valueOf?, Option.map_eq_none_iff, List.find?_eq_none]
  simp only [Scalar.isSameKey_text_iff, ne_eq]

/-! ## Where a path leads -/

inductive Value.Leads : Value → List String → Value → Prop
  | here (v : Value) : Leads v [] v
  | onward {entries : Entries} {key : String} {w u : Value} {path : List String} (hKey : Holds entries key w)
      (h : w.Leads path u) : Leads (.mapping entries) (key :: path) u

/-- The path comes to a value that is no mapping, or to a mapping without the next key. -/
inductive Value.Strays : Value → List String → Prop
  | noMapping {v : Value} (h : v.isMapping = false) (key : String) (path : List String) : Strays v (key :: path)
  | noKey {entries : Entries} {key : String} (h : ∀ entry ∈ entries, entry.1 ≠ .text key) (path : List String) :
      Strays (.mapping entries) (key :: path)
  | onward {entries : Entries} {key : String} {w : Value} {path : List String} (hKey : Holds entries key w)
      (h : w.Strays path) : Strays (.mapping entries) (key :: path)

theorem Value.find?_cons (v : Value) (key : String) (path : List String) :
    v.find? (key :: path) = (v.step? (.key (.text key))).bind fun w => w.find? path := by
  simp only [Value.find?_eq_atKeys?, List.map_cons, Value.atKeys?_cons]

theorem Value.find?_append (v : Value) (path more : List String) :
    v.find? (path ++ more) = (v.find? path).bind fun u => u.find? more := by
  induction path generalizing v with
  | nil => cases v <;> rfl
  | cons key path ih =>
    rw [List.cons_append, Value.find?_cons, Value.find?_cons, Option.bind_assoc]
    exact Option.bind_congr fun w _ => ih w

theorem Value.leads_iff {v u : Value} {path : List String} : v.Leads path u ↔ v.find? path = some u := by
  constructor
  · intro h
    induction h with
    | here v => cases v <;> rfl
    | onward hKey h ih => rw [Value.find?_cons, Value.step?, valueOf?_text_eq_some_iff.mpr hKey, Option.bind_some, ih]
  · intro h
    induction path generalizing v with
    | nil =>
      obtain rfl : v = u := by cases v <;> simpa [Value.find?] using h
      exact .here v
    | cons key path ih =>
      rw [Value.find?_cons] at h
      obtain ⟨w, hStep, hRest⟩ := Option.bind_eq_some_iff.mp h
      cases v with
      | mapping entries => exact .onward (valueOf?_text_eq_some_iff.mp hStep) (ih hRest)
      | list items => cases hStep
      | scalar s => cases hStep

theorem Value.strays_iff {v : Value} {path : List String} : v.Strays path ↔ v.find? path = none := by
  constructor
  · intro h
    induction h with
    | noMapping h key path => rw [Value.find?_cons, Value.step?_key_of_not_isMapping h, Option.bind_none]
    | noKey h path => rw [Value.find?_cons, Value.step?, valueOf?_text_eq_none_iff.mpr h, Option.bind_none]
    | onward hKey h ih => rw [Value.find?_cons, Value.step?, valueOf?_text_eq_some_iff.mpr hKey, Option.bind_some, ih]
  · intro h
    induction path generalizing v with
    | nil => cases v <;> cases h
    | cons key path ih =>
      cases hMapping : v.isMapping with
      | false => exact .noMapping hMapping key path
      | true =>
        obtain ⟨entries, rfl⟩ := v.isMapping_iff.mp hMapping
        rw [Value.find?_cons, Value.step?] at h
        cases hKey : valueOf? entries (.text key) with
        | none => exact .noKey (valueOf?_text_eq_none_iff.mp hKey) path
        | some w =>
          rw [hKey, Option.bind_some] at h
          exact .onward (valueOf?_text_eq_some_iff.mp hKey) (ih h)

/-! ## Lookups of dotted names -/

def Value.Finds (v : Value) (dotted : String) (u : Value) : Prop :=
  ∃ path, IsPathOf dotted path ∧ v.Leads path u

def Value.Misses (v : Value) (dotted : String) : Prop :=
  ∃ path, IsPathOf dotted path ∧ v.Strays path

theorem Value.finds_iff {v u : Value} {dotted : String} : v.Finds dotted u ↔ v.find? (pathOf dotted) = some u := by
  simp only [Value.Finds, isPathOf_iff, Value.leads_iff, exists_eq_left]

theorem Value.misses_iff {v : Value} {dotted : String} : v.Misses dotted ↔ v.find? (pathOf dotted) = none := by
  simp only [Value.Misses, isPathOf_iff, Value.strays_iff, exists_eq_left]

theorem Value.misses_iff_not_finds {v : Value} {dotted : String} : v.Misses dotted ↔ ∀ u, ¬v.Finds dotted u := by
  simp only [Value.misses_iff, Value.finds_iff, Option.eq_none_iff_forall_ne_some, ne_eq]

theorem Value.getD_of_finds {v u : Value} {dotted : String} (h : v.Finds dotted u) (default : Value) :
    v.getD dotted default = u := by
  rw [Value.getD, Value.finds_iff.mp h, Option.getD_some]

theorem Value.getD_of_misses {v : Value} {dotted : String} (h : v.Misses dotted) (default : Value) :
    v.getD dotted default = default := by
  rw [Value.getD, Value.misses_iff.mp h, Option.getD_none]

theorem Value.Finds.getD_append_dot {v u : Value} {a : String} (h : v.Finds a u) (b : String) (default : Value) :
    v.getD (a ++ "." ++ b) default = u.getD b default := by
  rw [Value.getD, pathOf_append_dot, Value.find?_append, Value.finds_iff.mp h, Option.bind_some, Value.getD]

theorem Value.Misses.append_dot {v : Value} {a : String} (h : v.Misses a) (b : String) : v.Misses (a ++ "." ++ b) := by
  rw [Value.misses_iff, pathOf_append_dot, Value.find?_append, Value.misses_iff.mp h, Option.bind_none]

/-- The lookup of two names with a dot between them goes on from the value of the first one, null included. It gives the
default if the first one finds nothing, and it finds nothing just where it strays. -/
theorem dotted_lookups_compose (v : Value) (a b : String) (default : Value) :
    (∀ u, v.Finds a u → v.getD a default = u ∧ v.getD (a ++ "." ++ b) default = u.getD b default) ∧
      ((∀ u, ¬v.Finds a u) → v.getD (a ++ "." ++ b) default = default) ∧
      (v.Misses a → v.getD a default = default) ∧
      (v.Misses a ↔ ∀ u, ¬v.Finds a u) := by
  refine ⟨?_, ?_, ?_, Value.misses_iff_not_finds⟩
  · intro u hFinds
    exact ⟨Value.getD_of_finds hFinds default, hFinds.getD_append_dot b default⟩
  · intro hNone
    have hMisses := Value.misses_iff_not_finds.mpr hNone
    exact Value.getD_of_misses (hMisses.append_dot b) default
  · intro hMisses
    exact Value.getD_of_misses hMisses default

def settingsWithNull : Value :=
  .mapping [(.text "a", .mapping [(.text "", .null)])]

theorem dotted_lookups_compose_at_null :
    (settingsWithNull.Finds "a." .null ∧ settingsWithNull.getD "a." (.text "d") = .null ∧
      settingsWithNull.getD ("a." ++ "." ++ "b") (.text "d") = Value.null.getD "b" (.text "d")) ∧
      (settingsWithNull.Misses "a.b" ∧ settingsWithNull.getD "a.b" (.text "d") = .text "d") ∧
      (∀ u, ¬settingsWithNull.Finds "a.b" u) ∧ settingsWithNull.getD ("a.b" ++ "." ++ "") (.text "d") = .text "d" := by
  have hFirst : Holds [(.text "a", .mapping [(.text "", .null)])] "a" (.mapping [(.text "", .null)]) :=
    ⟨[], [], rfl, by simp⟩
  have hFinds : settingsWithNull.Finds "a." .null :=
    ⟨["a", ""], ⟨by decide, by decide, by decide⟩, .onward hFirst (.onward ⟨[], [], rfl, by simp⟩ (.here _))⟩
  have hMisses : settingsWithNull.Misses "a.b" :=
    ⟨["a", "b"], ⟨by decide, by decide, by decide⟩, .onward hFirst (.noKey (by simp) [])⟩
  obtain ⟨hFound, -, -, -⟩ := dotted_lookups_compose settingsWithNull "a." "b" (.text "d")
  obtain ⟨-, hNothing, hStrayed, hIff⟩ := dotted_lookups_compose settingsWithNull "a.b" "" (.text "d")
  exact ⟨⟨hFinds, hFound .null hFinds⟩, ⟨hMisses, hStrayed hMisses⟩, hIff.mp hMisses, hNothing (hIff.mp hMisses)⟩

end ScenarioRunner.Settings
