import ScenarioRunner.Text.Lead

/-!
# Command-line options

Options have a long name, and some of them a letter. A value follows its option, as the rest of the same argument or as
the next one, whatever it looks like. Letters of options without values may be run together.
-/

namespace ScenarioRunner.CommandLine

open ScenarioRunner.Text

set_option autoImplicit false

inductive ValueOption where
  | config
  | environment
  | features
  | name
  | report
deriving DecidableEq, Repr

inductive FlagOption where
  | list
  | aggregateOutlines
  | verbose
  | version
  | help
deriving DecidableEq, Repr

inductive OptionKind where
  | value (o : ValueOption)
  | flag (o : FlagOption)
deriving DecidableEq, Repr

def longOption? (name : String) : Option OptionKind :=
  match name with
  | "--config" => some (.value .config)
  | "--env" => some (.value .environment)
  | "--features" => some (.value .features)
  | "--name" => some (.value .name)
  | "--report" => some (.value .report)
  | "--list" => some (.flag .list)
  | "--aggregate-outlines" => some (.flag .aggregateOutlines)
  | "--verbose" => some (.flag .verbose)
  | "--version" => some (.flag .version)
  | "--help" => some (.flag .help)
  | _ => none

def shortOption? (letter : Char) : Option OptionKind :=
  match letter with
  | 'c' => some (.value .config)
  | 'e' => some (.value .environment)
  | 'f' => some (.value .features)
  | 'n' => some (.value .name)
  | 'r' => some (.value .report)
  | 'v' => some (.flag .verbose)
  | _ => none

inductive Given where
  | value (o : ValueOption) (text : String)
  | flag (o : FlagOption)
deriving DecidableEq, Repr

structure Arguments where
  given : List Given := []
  extra : List String := []
deriving DecidableEq, Repr

/-- The letters of one argument. The last one may take its value from the argument after it. -/
def readLetters : List Char → List String → Option (List Given × List String)
  | [], rest => some ([], rest)
  | letter :: more, rest =>
    match shortOption? letter, more, rest with
    | none, _, _ => none
    | some (.flag o), _, _ => (readLetters more rest).map fun (given, rest) => (.flag o :: given, rest)
    | some (.value o), c :: text, _ => some ([.value o (String.ofList (c :: text))], rest)
    | some (.value o), [], text :: rest => some ([.value o text], rest)
    | some (.value _), [], [] => none

def readOption (argument : String) (rest : List String) : Option (List Given × List String) :=
  let s := argument.toList
  let name := String.ofList (s.takeWhile (· != '='))
  match longOption? name, afterFirst? '=' s, rest with
  | some (.value o), some text, _ => some ([.value o (String.ofList text)], rest)
  | some (.value o), none, text :: rest => some ([.value o text], rest)
  | some (.value _), none, [] => none
  | some (.flag o), none, _ => some ([.flag o], rest)
  | some (.flag _), some _, _ => none
  | none, _, _ => if (after? ['-', '-'] s).isSome then none else readLetters (s.drop 1) rest

def isOption (argument : String) : Bool :=
  match argument.toList with
  | '-' :: _ :: _ => true
  | _ => false

/-- Each step takes at least one argument. After two dashes nothing is an option. -/
def readWithin : Nat → List String → Option Arguments
  | 0, rest => some { extra := rest }
  | _ + 1, [] => some {}
  | steps + 1, argument :: rest =>
    if argument == "--" then some { extra := rest }
    else if isOption argument then do
      let (given, rest) ← readOption argument rest
      let later ← readWithin steps rest
      return { later with given := given ++ later.given }
    else do
      let later ← readWithin steps rest
      return { later with extra := argument :: later.extra }

def Arguments.read? (arguments : List String) : Option Arguments :=
  readWithin arguments.length arguments

inductive ReportChoice where
  | html
  | json
  | both
  | none
deriving DecidableEq, Repr

def reportChoice? : String → Option ReportChoice
  | "html" => some .html
  | "json" => some .json
  | "both" => some .both
  | "none" => some .none
  | _ => Option.none

structure Options where
  config : String := "config/config.yaml"
  environment : Option String := none
  features : List String := []
  name : Option String := none
  listOnly : Bool := false
  aggregateOutlines : Bool := false
  report : ReportChoice := .none
  verbose : Bool := false
deriving DecidableEq, Repr

inductive Request where
  | run (options : Options)
  | version
  | help
  | usageError
deriving DecidableEq, Repr

def Arguments.values (a : Arguments) (o : ValueOption) : List String :=
  a.given.filterMap fun
    | .value p text => if p = o then some text else none
    | .flag _ => none

def Arguments.has (a : Arguments) (o : FlagOption) : Bool :=
  a.given.contains (.flag o)

/-- Of the version and the help, the one that was asked for first is shown. -/
def Arguments.question? (a : Arguments) : Option Request :=
  a.given.findSome? fun
    | .flag .version => some .version
    | .flag .help => some .help
    | _ => none

/-- Of a single option the last value counts. -/
def Arguments.options? (a : Arguments) : Option Options := do
  let report ← ((a.values .report).getLast?.map reportChoice?).getD (some .none)
  if !a.extra.isEmpty then failure
  return {
    config := (a.values .config).getLast?.getD "config/config.yaml"
    environment := (a.values .environment).getLast?
    features := a.values .features
    name := (a.values .name).getLast?
    listOnly := a.has .list
    aggregateOutlines := a.has .aggregateOutlines
    report
    verbose := a.has .verbose }

def Request.ofArguments (arguments : List String) : Request :=
  match Arguments.read? arguments with
  | none => .usageError
  | some a =>
    match a.question?, a.options? with
    | some question, _ => question
    | none, some options => .run options
    | none, none => .usageError

end ScenarioRunner.CommandLine
