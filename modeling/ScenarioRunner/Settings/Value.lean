import ScenarioRunner.Settings.Scalar
import ScenarioRunner.Text.Lines

/-!
# Setting values

The value of a setting is a scalar, a list or a mapping. The keys of a mapping are scalars; it keeps them in order and
has each key once.
-/

namespace ScenarioRunner.Settings

set_option autoImplicit false

inductive Value where
  | scalar (s : Scalar)
  | list (items : List Value)
  | mapping (entries : List (Scalar × Value))
deriving Inhabited

abbrev Entries := List (Scalar × Value)

def valueOf? {α : Type} (entries : List (Scalar × α)) (key : Scalar) : Option α :=
  (entries.find? fun entry => entry.1.isSameKey key).map (·.2)

@[match_pattern] abbrev Value.null : Value := .scalar .null

@[match_pattern] abbrev Value.bool (b : Bool) : Value := .scalar (.bool b)

@[match_pattern] abbrev Value.text (s : String) : Value := .scalar (.text s)

/-- Nothing, zero, and everything empty count as not set. -/
def Value.isSet : Value → Bool
  | .scalar s => s.isSet
  | .list items => !items.isEmpty
  | .mapping entries => !entries.isEmpty

def Value.isText : Value → Bool
  | .scalar (.text _) => true
  | .scalar (.halved _) => true
  | _ => false

def Value.typeName : Value → String
  | .scalar s => s.typeName
  | .list _ => "list"
  | .mapping _ => "dict"

mutual

def Value.quoted : Value → Except Fault String
  | .scalar s => s.quoted
  | .list items => do return "[" ++ ", ".intercalate (← quotedItems items) ++ "]"
  | .mapping entries => do return "\x7b" ++ ", ".intercalate (← quotedEntries entries) ++ "\x7d"

def quotedItems : List Value → Except Fault (List String)
  | [] => .ok []
  | v :: rest => do return (← v.quoted) :: (← quotedItems rest)

def quotedEntries : List (Scalar × Value) → Except Fault (List String)
  | [] => .ok []
  | (key, v) :: rest => do return ((← key.quoted) ++ ": " ++ (← v.quoted)) :: (← quotedEntries rest)

end

def Value.shown : Value → Except Fault String
  | .scalar s => s.shown
  | v => v.quoted

def Value.sought : Value → Except Fault String
  | .scalar (.halved points) => .ok (String.ofList (Text.sought points))
  | v => v.shown

/-- The value at the end of a path of keys. A path through anything but mappings, or by a missing key, leads nowhere. -/
def Value.find? : Value → List String → Option Value
  | v, [] => some v
  | .mapping entries, key :: path =>
    match valueOf? entries (.text key) with
    | some v => v.find? path
    | none => none
  | _, _ :: _ => none

def pathOf (dotted : String) : List String :=
  (Text.pieces '.' dotted.toList).map String.ofList

def Value.getD (v : Value) (dotted : String) (default : Value := .null) : Value :=
  (v.find? (pathOf dotted)).getD default

end ScenarioRunner.Settings
