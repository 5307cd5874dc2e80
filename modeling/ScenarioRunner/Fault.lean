/-!
# Faults

What can go wrong, by cause. Settings of a wrong shape are told apart from all other faults, because a run reports
them and stops, while most other faults escape.
-/

namespace ScenarioRunner

set_option autoImplicit false

inductive SettingsFault where
  | fileNotMapping (path : String)
  | sectionNotMapping
  | variablesNotMapping
  | notList (key typeName : String)
  | notFlag (key shown : String)
deriving DecidableEq, Repr

def SettingsFault.message : SettingsFault → String
  | .fileNotMapping path => "Config file " ++ path ++ " must contain a mapping"
  | .sectionNotMapping => "'cucumber_runner' must be a mapping"
  | .variablesNotMapping => "'cucumber_runner.env_variables' must be a mapping"
  | .notList key typeName => "'cucumber_runner." ++ key ++ "' must be a list, got " ++ typeName
  | .notFlag key shown => "'cucumber_runner." ++ key ++ "' must be true or false, got " ++ shown

inductive CalendarFault where
  | year (number : Nat)
  | month
  | day
  | hour
  | minute
  | second
  /-- An offset of a day or more from universal time, in days and seconds. -/
  | offset (days : Int) (seconds : Nat)
deriving DecidableEq, Repr

/-- A span of time in days and seconds; a part that is zero is left out, unless both are. -/
def spanText (days : Int) (seconds : Nat) : String :=
  let parts := (if days = 0 then [] else ["days=" ++ toString days]) ++
    if seconds = 0 then [] else ["seconds=" ++ toString seconds]
  "datetime.timedelta(" ++ (if parts.isEmpty then "0" else ", ".intercalate parts) ++ ")"

def CalendarFault.message : CalendarFault → String
  | .year number => "year " ++ toString number ++ " is out of range"
  | .month => "month must be in 1..12"
  | .day => "day is out of range for month"
  | .hour => "hour must be in 0..23"
  | .minute => "minute must be in 0..59"
  | .second => "second must be in 0..59"
  | .offset days seconds =>
    "offset must be a timedelta strictly between -timedelta(hours=24) and timedelta(hours=24), not " ++
      spanText days seconds ++ "."

inductive FileFault where
  | missing
  | isDirectory
  | notDirectory
  | taken
  | nameTooLong
deriving DecidableEq, Repr

inductive Fault where
  | settings (reason : SettingsFault)
  | calendar (reason : CalendarFault)
  | file (reason : FileFault)
  /-- The environment overlay is a single value that cannot hold overrides. -/
  | overlayNotContainer
  /-- The environment overlay, or its part of overrides, has no keys. -/
  | overlayNotMapping
  | pathNotText
  | malformedSettings
  /-- A settings file has more lists and mappings inside each other than can be read. -/
  | nestedTooDeep
  /-- A variable or a path has a null character in it. -/
  | nullCharacter
  | equalsInVariableName
  /-- A variable is asked for by a name with half of a character in it. -/
  | halfInVariableName
  | notUtf8
  | emptyPattern
  | patternWithoutNames
  /-- A pattern has a slash at its end and nothing before it. -/
  | patternOnlySlash
  | misplacedDoubleStar
  | notOutline (name : String)
  | numeralTooLong (digits : Nat)
  | numberTooLong
  | numberTooLarge
  /-- A text that should be a whole number in a base, shown in quotes. -/
  | notWholeNumber (base : Nat) (shown : String)
  /-- A text that should be a fraction, shown in quotes. -/
  | notFraction (shown : String)
  | noNumber
  | notTruthValue
  | notTimestamp
  | noCharacter
  /-- An escape names a number that is too large for any character set. -/
  | characterTooLarge
  /-- A launch was refused before the system was asked to start anything. -/
  | launchRefused (text : String)
deriving DecidableEq, Repr

def FileFault.message : FileFault → String
  | .missing => "the file does not exist"
  | .isDirectory => "the path is a directory"
  | .notDirectory => "the path leads through a file"
  | .taken => "the path is taken by a file"
  | .nameTooLong => "the name is too long"

def Fault.message : Fault → String
  | .settings reason => reason.message
  | .calendar reason => reason.message
  | .file reason => reason.message
  | .overlayNotContainer => "the overlay holds no keys"
  | .overlayNotMapping => "the overlay is not a mapping"
  | .pathNotText => "a path must be text"
  | .malformedSettings => "the settings file is malformed"
  | .nestedTooDeep => "the settings file is nested too deep"
  | .nullCharacter => "embedded null byte"
  | .equalsInVariableName => "illegal environment variable name"
  | .halfInVariableName => "the variable name has half of a character in it"
  | .notUtf8 => "the file is not UTF-8"
  | .emptyPattern => "Unacceptable pattern: ''"
  | .patternWithoutNames => "the pattern names nothing"
  | .patternOnlySlash => "the pattern names nothing before its slash"
  | .misplacedDoubleStar => "Invalid pattern: '**' can only be an entire path component"
  | .notOutline name => "'" ++ name ++ "' is not a Scenario Outline"
  | .numeralTooLong digits =>
    "Exceeds the limit (4300 digits) for integer string conversion: value has " ++ toString digits ++
      " digits; use sys.set_int_max_str_digits() to increase the limit"
  | .numberTooLong =>
    "Exceeds the limit (4300 digits) for integer string conversion; " ++
      "use sys.set_int_max_str_digits() to increase the limit"
  | .numberTooLarge => "int too large to convert to float"
  | .notWholeNumber base shown => "invalid literal for int() with base " ++ toString base ++ ": " ++ shown
  | .notFraction shown => "could not convert string to float: " ++ shown
  | .noNumber => "a number is missing"
  | .notTruthValue => "the text is no truth value"
  | .notTimestamp => "the text is no timestamp"
  | .noCharacter => "chr() arg not in range(0x110000)"
  | .characterTooLarge => "Python int too large to convert to C int"
  | .launchRefused text => text

/-- What comes of two computations in a row came of both. -/
theorem exists_of_bind_eq_ok {α β : Type} {x : Except Fault α} {f : α → Except Fault β} {b : β}
    (h : x >>= f = .ok b) : ∃ a, x = .ok a ∧ f a = .ok b := by
  cases x with
  | error fault => cases h
  | ok a => exact ⟨a, rfl, h⟩

theorem eq_ok_of_mem_toOption {α : Type} {x : Except Fault α} {a : α} (h : a ∈ x.toOption) : x = .ok a := by
  cases x with
  | error fault => cases h
  | ok b =>
    cases h
    rfl

theorem exists_of_mem_of_mapM_eq_ok {α β : Type} {f : α → Except Fault β} {l : List α} {results : List β}
    (h : l.mapM f = .ok results) : ∀ b ∈ results, ∃ a ∈ l, f a = .ok b := by
  induction l generalizing results with
  | nil =>
    cases h
    simp
  | cons a l ih =>
    rw [List.mapM_cons] at h
    obtain ⟨first, hFirst, h⟩ := exists_of_bind_eq_ok h
    obtain ⟨others, hOthers, h⟩ := exists_of_bind_eq_ok h
    cases h
    rintro b hb
    rcases List.mem_cons.mp hb with rfl | hb
    · exact ⟨a, List.mem_cons_self, hFirst⟩
    · obtain ⟨a', ha', hb⟩ := ih hOthers b hb
      exact ⟨a', List.mem_cons_of_mem a ha', hb⟩

theorem mapM_map_of_item {α β γ : Type} (f : α → Except Fault β) (g : α → β → γ) (items : List α) :
    items.mapM (fun a => (f a).map (g a)) = (items.mapM f).map (List.zipWith g items) := by
  induction items with
  | nil => rfl
  | cons a items ih =>
    rw [List.mapM_cons, List.mapM_cons, ih]
    cases f a with
    | error fault => rfl
    | ok b =>
      cases items.mapM f with
      | error fault => rfl
      | ok bs => rfl

end ScenarioRunner
