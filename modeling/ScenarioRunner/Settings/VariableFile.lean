import ScenarioRunner.Settings.Environment
import ScenarioRunner.Text.Blank
import ScenarioRunner.Text.Lead

/-!
# Variable files

A variable file has a binding on each line: a name, and a value after an equals sign. Values may be quoted, and a quoted
value may span lines. A line that cannot be read is skipped. Values may refer to variables.
-/

namespace ScenarioRunner.Settings.VariableFile

open ScenarioRunner.Text

set_option autoImplicit false

/-- A name with its value; a name without an equals sign has none. -/
structure Binding where
  name : String
  value : Option String
deriving DecidableEq, Repr

def isInlineBlank (c : Char) : Bool :=
  isBlank c && c != '\n' && c != '\r'

def skipInline (s : List Char) : List Char :=
  s.dropWhile isInlineBlank

def skipExport (s : List Char) : List Char :=
  match after? "export".toList s with
  | some rest => if (rest.takeWhile isInlineBlank).isEmpty then s else skipInline rest
  | none => s

def isNameChar (c : Char) : Bool :=
  c != '=' && c != '#' && !isBlank c

def readName? (s : List Char) : Option (List Char × List Char) :=
  match s with
  | '\'' :: rest => do
    let (name, rest) ← run? (· != '\'') rest
    let rest ← after? ['\''] rest
    return (name, rest)
  | _ => run? isNameChar s

/-- The text up to the closing quote, and the text after it. A backslash takes the next character along. -/
def readQuoted? (quote : Char) : List Char → Option (List Char × List Char)
  | [] => none
  | '\\' :: c :: s => (readQuoted? quote s).map fun (inside, rest) => ('\\' :: c :: inside, rest)
  | ['\\'] => none
  | c :: s =>
    if c = quote then some ([], s) else (readQuoted? quote s).map fun (inside, rest) => (c :: inside, rest)

def singleEscape? : Char → Option Char
  | '\\' => some '\\'
  | '\'' => some '\''
  | _ => none

def doubleEscape? : Char → Option Char
  | '\\' => some '\\'
  | '\'' => some '\''
  | '"' => some '"'
  | 'a' => some '\x07'
  | 'b' => some '\x08'
  | 'f' => some '\x0c'
  | 'n' => some '\n'
  | 'r' => some '\r'
  | 't' => some '\t'
  | 'v' => some '\x0b'
  | _ => none

/-- A backslash before a character without a meaning stays. -/
def unescape (escape? : Char → Option Char) : List Char → List Char
  | [] => []
  | '\\' :: c :: s =>
    match escape? c with
    | some d => d :: unescape escape? s
    | none => '\\' :: unescape escape? (c :: s)
  | c :: s => c :: unescape escape? s

/-- A bare value ends before a comment, which is a number sign after a blank. -/
def cutComment : List Char → List Char
  | [] => []
  | c :: s =>
    if isBlank c then
      if (s.dropWhile isBlank).head? = some '#' then []
      else c :: s.takeWhile isBlank ++ cutComment (s.dropWhile isBlank)
    else c :: cutComment s
termination_by s => s.length
decreasing_by
  · have hDrop : (s.dropWhile isBlank).length ≤ s.length := (List.dropWhile_sublist _).length_le
    simp only [List.length_cons]
    omega
  · simp

def isLineEnd (c : Char) : Bool :=
  c == '\n' || c == '\r'

def readValue? (s : List Char) : Option (List Char × List Char) :=
  match skipInline s with
  | '\'' :: rest => (readQuoted? '\'' rest).map fun (v, rest) => (unescape singleEscape? v, rest)
  | '"' :: rest => (readQuoted? '"' rest).map fun (v, rest) => (unescape doubleEscape? v, rest)
  | _ => some (trim (cutComment (s.takeWhile (!isLineEnd ·))), s.dropWhile (!isLineEnd ·))

def skipComment (s : List Char) : List Char :=
  match skipInline s with
  | '#' :: rest => rest.dropWhile (!isLineEnd ·)
  | _ => s

def endLine? (s : List Char) : Option (List Char) :=
  match skipInline s with
  | [] => some []
  | '\r' :: '\n' :: rest => some rest
  | c :: rest => if isLineEnd c then some rest else none

def skipLine (s : List Char) : List Char :=
  (s.dropWhile (!isLineEnd ·)).drop 1

/-- What stands on a line: a binding or a comment, with the text after the line; or the text from which the rest of
the line is skipped. -/
def readLine (s : List Char) : Except (List Char) (Option Binding × List Char) :=
  let s := skipExport s
  match s with
  | '#' :: _ =>
    match endLine? (skipComment s) with
    | some rest => .ok (none, rest)
    | none => .error s
  | _ =>
    match readName? s with
    | none => .error s
    | some (name, afterName) =>
      match after? ['='] (skipInline afterName) with
      | none =>
        match endLine? (skipComment (skipInline afterName)) with
        | some rest => .ok (some ⟨String.ofList name, none⟩, rest)
        | none => .error (skipComment (skipInline afterName))
      | some afterSign =>
        match readValue? afterSign with
        | none => .error (skipInline afterSign)
        | some (value, afterValue) =>
          match endLine? (skipComment afterValue) with
          | some rest => .ok (some ⟨String.ofList name, some (String.ofList value)⟩, rest)
          | none => .error (skipComment afterValue)

/-- Each step takes at least one character, so as many steps as characters are enough. -/
def bindingsWithin : Nat → List Char → List Binding
  | 0, _ => []
  | steps + 1, s =>
    match trimLeft s with
    | [] => []
    | start =>
      match readLine start with
      | .ok (some binding, rest) => binding :: bindingsWithin steps rest
      | .ok (none, rest) => bindingsWithin steps rest
      | .error rest => bindingsWithin steps (skipLine rest)

/-- A byte order mark at the start is no part of the first line. -/
def bindings (s : List Char) : List Binding :=
  bindingsWithin s.length ((after? ['\uFEFF'] s).getD s)

/-- The rest of a reference such as `${NAME}` or `${NAME:-default}` after its dollar sign: the name, the default, and
the text after the reference. -/
def readReference? (s : List Char) : Option (List Char × List Char × List Char) := do
  let inside ← after? ['\x7b'] s
  let name := inside.takeWhile fun c => c != '\x7d' && c != ':'
  let afterName := inside.dropWhile fun c => c != '\x7d' && c != ':'
  match after? [':', '-'] afterName with
  | none => return (name, [], ← after? ['\x7d'] afterName)
  | some default => return (name, default.takeWhile (· != '\x7d'), ← afterFirst? '\x7d' default)

theorem length_of_readReference? {s name default rest : List Char}
    (h : readReference? s = some (name, default, rest)) : rest.length < s.length := by
  simp only [readReference?, Option.bind_eq_bind, Option.bind_eq_some_iff] at h
  obtain ⟨inside, hOpen, h⟩ := h
  have hInside := length_of_after? hOpen
  have hDrop : (inside.dropWhile fun c => c != '\x7d' && c != ':').length ≤ inside.length :=
    (List.dropWhile_sublist _).length_le
  simp only [List.length_cons, List.length_nil] at hInside
  split at h
  · simp only [Option.bind_eq_some_iff, Option.pure_def, Option.some.injEq, Prod.mk.injEq] at h
    obtain ⟨_, hClose, _, _, rfl⟩ := h
    have := length_of_after? hClose
    omega
  · next hDefault =>
    simp only [Option.bind_eq_some_iff, Option.pure_def, Option.some.injEq, Prod.mk.injEq] at h
    obtain ⟨_, hClose, _, _, rfl⟩ := h
    have := length_of_after? hDefault
    have := length_of_afterFirst? hClose
    omega

def expand (find? : String → Option String) : List Char → List Char
  | [] => []
  | c :: s =>
    if c = '$' then
      match _h : readReference? s with
      | some (name, default, rest) =>
        ((find? (String.ofList name)).map String.toList).getD default ++ expand find? rest
      | none => c :: expand find? s
    else c :: expand find? s
termination_by s => s.length
decreasing_by
  · have := length_of_readReference? _h
    simp only [List.length_cons]
    omega
  · simp
  · simp

/-- Whether references look into the environment or into the file first. -/
inductive Precedence where
  | environmentFirst
  | fileFirst
deriving DecidableEq

/-- What a name refers to; a name of the file without a value refers to nothing, which is an empty text. -/
def resolve? (precedence : Precedence) (env : Environment) (earlier : List Binding) (name : String) :
    Option String :=
  let inFile := (earlier.reverse.find? (·.name == name)).map fun b => b.value.getD ""
  match precedence with
  | .environmentFirst => (env.get? name).or inFile
  | .fileFirst => inFile.or (env.get? name)

def Binding.expand (b : Binding) (find? : String → Option String) : Binding :=
  { b with value := b.value.map fun v => String.ofList (VariableFile.expand find? v.toList) }

def expandAll (precedence : Precedence) (env : Environment) (bindings : List Binding) : List Binding :=
  bindings.foldl (fun earlier b => earlier ++ [b.expand (resolve? precedence env earlier)]) []

def environmentOf (precedence : Precedence) (env : Environment) (text : List Char) : Environment :=
  let all := expandAll precedence env (bindings text)
  let last (name : String) : Option String := (all.reverse.find? (·.name == name)).bind (·.value)
  all.foldl (fun set b =>
    match last b.name with
    | some v => set.set b.name v
    | none => set) []

def switchName : String := "PYTHON_DOTENV_DISABLED"

/-- Letters count in any case; the long s is one of the forms of its letter. -/
def foldCase (c : Char) : Char :=
  if c = '\u017F' then 's' else c.toLower

def isSwitchedOff (env : Environment) : Bool :=
  match env.get? switchName with
  | some v => ["1", "true", "t", "yes", "y"].contains (String.ofList (v.toList.map foldCase))
  | none => false

end ScenarioRunner.Settings.VariableFile
