import ScenarioRunner.Proofs.Report.Document

/-!
# Records of a document

What a document tells of a report: its moment, its counts and its results, read from its text. Main statements: the
counts of a document are those of its entries, and it has one record for each entry, in their order.
-/

namespace ScenarioRunner.Report.Json

open ScenarioRunner.Calendar
open ScenarioRunner.Text

set_option autoImplicit false

/-! ## Values -/

def natural? (digits : List Char) : Option Nat :=
  if digits ≠ [] ∧ digits.all Char.isDigit then some (numeralValue digits) else none

def whole? : List Char → Option Int
  | '-' :: digits => (natural? digits).map fun n => -(n : Int)
  | digits => (natural? digits).map Int.ofNat

def Item.text? : Item → Option String
  | .text s => some s
  | _ => none

def Item.bool? : Item → Option Bool
  | .word "true" => some true
  | .word "false" => some false
  | _ => none

def Item.int? : Item → Option Int
  | .word s => whole? s.toList
  | _ => none

def Item.number? : Item → Option String
  | .word s => some s
  | _ => none

def Item.list? : Item → Option (List Item)
  | .list items => some items
  | _ => none

def Item.object? : Item → Option (List (String × Item))
  | .object members => some members
  | _ => none

def Item.optional? {α : Type} (f : Item → Option α) (item : Item) : Option (Option α) :=
  match item with
  | .word "null" => some none
  | item => (f item).map some

def Item.member? {α : Type} (item : Item) (name : String) (f : Item → Option α) : Option α := do
  let member ← (← item.object?).lookup name
  f member

/-! ## Records -/

/-- One result, with the duration as it is written. -/
structure Recorded where
  id : String
  name : String
  uri : String
  isOutline : Bool
  line : Int
  outcome : String
  message : Option String
  elapsed : Option String
  stepsPassed : Option Int
  stepsTotal : Option Int
  scenariosPassed : Option Int
  scenariosTotal : Option Int
  location : Option (Int × Int)
deriving DecidableEq

def locationOf? (item : Item) : Option (Int × Int) := do
  return (← item.member? "line" Item.int?, ← item.member? "character" Item.int?)

def Recorded.ofItem? (item : Item) : Option Recorded := do
  return {
    id := ← item.member? "id" Item.text?
    name := ← item.member? "name" Item.text?
    uri := ← item.member? "uri" Item.text?
    isOutline := ← item.member? "is_outline" Item.bool?
    line := ← item.member? "line" Item.int?
    outcome := ← item.member? "outcome" Item.text?
    message := ← item.member? "message" (Item.optional? Item.text?)
    elapsed := ← item.member? "elapsed_seconds" (Item.optional? Item.number?)
    stepsPassed := ← item.member? "steps_passed" (Item.optional? Item.int?)
    stepsTotal := ← item.member? "steps_total" (Item.optional? Item.int?)
    scenariosPassed := ← item.member? "scenarios_passed" (Item.optional? Item.int?)
    scenariosTotal := ← item.member? "scenarios_total" (Item.optional? Item.int?)
    location := ← item.member? "location" (Item.optional? locationOf?) }

def moment? (document : String) : Option String := do
  (← read? document).member? "generated" Item.text?

/-- The names of the counts with the counts, in the order of the document. -/
def counts? (document : String) : Option (List (String × Int)) := do
  let members ← (← read? document).member? "summary" Item.object?
  members.mapM fun member => member.2.int?.map fun n => (member.1, n)

def records? (document : String) : Option (List Recorded) := do
  let items ← (← read? document).member? "results" Item.list?
  items.mapM Recorded.ofItem?

/-! ## Reading data -/

theorem natural?_toDigits (n : Nat) : natural? (Nat.toDigits 10 n) = some n := by
  have hDigits : (Nat.toDigits 10 n).all Char.isDigit = true :=
    List.all_eq_true.mpr fun c hc => Nat.isDigit_of_mem_toDigits (by decide) (by decide) hc
  rw [natural?, if_pos ⟨Nat.toDigits_ne_nil, hDigits⟩, numeralValue_toDigits]

theorem int?_int (n : Int) : (Data.int n).item.int? = some n := by
  cases n with
  | ofNat n =>
    rw [Data.item, Item.int?, toList_toString_ofNat, whole?, natural?_toDigits]
    · rfl
    · intro digits hMinus
      have hDigit : '-'.isDigit = true :=
        Nat.isDigit_of_mem_toDigits (by decide) (by decide) (hMinus ▸ List.mem_cons_self)
      cases hDigit
  | negSucc n =>
    rw [Data.item, Item.int?, toList_toString_negSucc, whole?, natural?_toDigits]
    rfl

theorem floatText_ne_null (x : Float) : floatText x ≠ "null" := by
  unfold floatText
  split
  · split <;> decide
  · decide
  · intro hText
    have hNumber := isNumberChar_text x
    rw [hText] at hNumber
    exact absurd (hNumber 'u' (by decide)) (by decide)

theorem optional?_optional {α β : Type} {write : α → Data} {read : Item → Option β} {f : α → β}
    (hRead : ∀ a, read (write a).item = some (f a)) (hNull : ∀ a, (write a).item ≠ .word "null") (value : Option α) :
    (Data.optional write value).item.optional? read = some (value.map f) := by
  cases value with
  | none => rfl
  | some a =>
    rw [Data.optional, Item.optional?, hRead]
    · rfl
    · exact hNull a

theorem optional?_text (value : Option String) :
    (Data.optional .text value).item.optional? Item.text? = some value := by
  have hRead (s : String) : (Data.text s).item.text? = some s := rfl
  rw [optional?_optional hRead (fun _ h => by cases h), Option.map_id']

theorem optional?_int (value : Option Int) : (Data.optional .int value).item.optional? Item.int? = some value := by
  have hNull (n : Int) : (Data.int n).item ≠ .word "null" := by
    intro hItem
    have hRead := int?_int n
    rw [hItem] at hRead
    cases hRead
  rw [optional?_optional int?_int hNull, Option.map_id']

theorem optional?_float (value : Option Float) :
    (Data.optional .float value).item.optional? Item.number? = some (value.map floatText) := by
  have hRead (x : Float) : (Data.float x).item.number? = some (floatText x) := rfl
  exact optional?_optional hRead (fun x hItem => floatText_ne_null x (Item.word.inj hItem)) value

theorem locationOf?_locationData (location : Int × Int) :
    locationOf? (locationData location).item = some location := by
  have hLine : (locationData location).item.member? "line" Item.int? = some location.1 := int?_int _
  have hCharacter : (locationData location).item.member? "character" Item.int? = some location.2 := int?_int _
  rw [locationOf?, hLine, hCharacter]
  rfl

theorem optional?_location (value : Option (Int × Int)) :
    (Data.optional locationData value).item.optional? locationOf? = some value := by
  rw [optional?_optional locationOf?_locationData (fun _ h => by cases h), Option.map_id']

/-! ## Reading a report -/

def Recorded.ofEntry (e : Entry) : Recorded where
  id := e.id
  name := e.name
  uri := e.uri
  isOutline := e.isOutline
  line := e.line
  outcome := e.outcome.word
  message := e.message
  elapsed := e.elapsedSeconds.map floatText
  stepsPassed := e.stepsPassed
  stepsTotal := e.stepsTotal
  scenariosPassed := e.scenariosPassed
  scenariosTotal := e.scenariosTotal
  location := e.location

theorem ofItem?_entryData (e : Entry) : Recorded.ofItem? (entryData e).item = some (.ofEntry e) := by
  have hId : (entryData e).item.member? "id" Item.text? = some e.id := rfl
  have hName : (entryData e).item.member? "name" Item.text? = some e.name := rfl
  have hUri : (entryData e).item.member? "uri" Item.text? = some e.uri := rfl
  have hOutline : (entryData e).item.member? "is_outline" Item.bool? = some e.isOutline := by
    have hBool : (Data.bool e.isOutline).item.bool? = some e.isOutline := by cases e.isOutline <;> rfl
    exact hBool
  have hLine : (entryData e).item.member? "line" Item.int? = some e.line := int?_int _
  have hOutcome : (entryData e).item.member? "outcome" Item.text? = some e.outcome.word := rfl
  have hMessage : (entryData e).item.member? "message" (Item.optional? Item.text?) = some e.message :=
    optional?_text _
  have hElapsed : (entryData e).item.member? "elapsed_seconds" (Item.optional? Item.number?) =
      some (e.elapsedSeconds.map floatText) := optional?_float _
  have hStepsPassed : (entryData e).item.member? "steps_passed" (Item.optional? Item.int?) = some e.stepsPassed :=
    optional?_int _
  have hStepsTotal : (entryData e).item.member? "steps_total" (Item.optional? Item.int?) = some e.stepsTotal :=
    optional?_int _
  have hScenariosPassed : (entryData e).item.member? "scenarios_passed" (Item.optional? Item.int?) =
      some e.scenariosPassed := optional?_int _
  have hScenariosTotal : (entryData e).item.member? "scenarios_total" (Item.optional? Item.int?) =
      some e.scenariosTotal := optional?_int _
  have hLocation : (entryData e).item.member? "location" (Item.optional? locationOf?) = some e.location :=
    optional?_location _
  rw [Recorded.ofItem?, hId, hName, hUri, hOutline, hLine, hOutcome, hMessage, hElapsed, hStepsPassed, hStepsTotal,
    hScenariosPassed, hScenariosTotal, hLocation]
  rfl

theorem itemsOf_eq_map (items : List Data) : itemsOf items = items.map Data.item := by
  induction items with
  | nil => rfl
  | cons d items ih => rw [itemsOf, ih, List.map_cons]

theorem membersOf_eq_map (members : List (String × Data)) :
    membersOf members = members.map fun member => (member.1, member.2.item) := by
  induction members with
  | nil => rfl
  | cons member members ih => rw [membersOf, ih, List.map_cons]

theorem mapM_eq_some_map {α β : Type} {f : α → Option β} {g : α → β} (h : ∀ a, f a = some (g a)) (items : List α) :
    items.mapM f = some (items.map g) := by
  have hf : f = fun a => pure (g a) := funext h
  rw [hf, List.mapM_pure]
  rfl

variable {moment : Moment} {entries : List Entry}

theorem moment?_document (h : (document moment entries).fault = none) :
    moment? (document moment entries).text = some moment.iso := by
  rw [moment?, document, read?_render h]
  rfl

/-- The counts of a document are those of its entries. -/
theorem counts?_document (h : (document moment entries).fault = none) :
    counts? (document moment entries).text = some ((summaryOf entries).map fun count => (count.1, (count.2 : Int))) := by
  have hSummary : (reportData moment entries).item.member? "summary" Item.object? =
      some (membersOf ((summaryOf entries).map fun count => (count.1, .int count.2))) := rfl
  rw [counts?, document, read?_render h, Option.bind_eq_bind, Option.bind_some, hSummary, membersOf_eq_map, List.map_map,
    Option.bind_eq_bind, Option.bind_some, List.mapM_map]
  apply mapM_eq_some_map
  intro count
  rw [Function.comp_apply, Function.comp_apply, int?_int, Option.map_some]

/-- A document has one record for each entry. -/
theorem records?_document (h : (document moment entries).fault = none) :
    records? (document moment entries).text = some (entries.map Recorded.ofEntry) := by
  have hResults : (reportData moment entries).item.member? "results" Item.list? =
      some (itemsOf (entries.map entryData)) := rfl
  rw [records?, document, read?_render h, Option.bind_eq_bind, Option.bind_some, hResults, itemsOf_eq_map, List.map_map,
    Option.bind_eq_bind, Option.bind_some, List.mapM_map]
  exact mapM_eq_some_map ofItem?_entryData entries

end ScenarioRunner.Report.Json
