import ScenarioRunner.Settings.Yaml.Mark
import ScenarioRunner.Text.Surrogate

/-!
# Scalars as they are written

A scalar is quoted, plain, or a block of lines. In quoted and plain scalars one line end counts as a space, and each
further one as a line feed; a block keeps its line ends, or folds them in the same way. Only in double quotes there are
escapes, and only escapes can name half of a character.
-/

namespace ScenarioRunner.Settings.Yaml

open ScenarioRunner.Text

set_option autoImplicit false

/-- What a break stands for: the two separators stand for themselves, and any other break for a line feed. -/
def breakText (c : Char) : Char :=
  if c == '\x85' then '\n' else c

def foldBreaks (first : Char) (further : List Char) : List Char :=
  let start := breakText first
  if start != '\n' then start :: further
  else if further.isEmpty then [' ']
  else further

/-- The breaks after a first one, and what follows them. Blanks around the breaks are left out. Nothing is given if a
sign between documents comes at the start of a line. -/
def breaksAfter (isSkipped : Char → Bool) : Bool → List Mark → Option (List Char) × List Mark
  | _, [] => (some [], [])
  | atStart, m :: s =>
    if atStart && atDocumentSign (m :: s) then (none, m :: s)
    else if isSkipped m.char then breaksAfter isSkipped false s
    else if isBreak m.char then
      let (further, rest) := breaksAfter isSkipped true s
      (further.map (breakText m.char :: ·), rest)
    else (some [], m :: s)

def quotedBreaks (s : List Mark) : Except Fault (List Char × List Mark) :=
  match breaksAfter isSpaceOrTab true s with
  | (some further, rest) => .ok (further, rest)
  | (none, _) => .error .malformedSettings

/-- Blanks inside quotes stay, unless a break comes after them. -/
def quotedBlanks (s : List Mark) : Except Fault (List Char × List Mark) := do
  let blanks := s.takeWhile fun m => isSpaceOrTab m.char
  match s.dropWhile fun m => isSpaceOrTab m.char with
  | [] => throw .malformedSettings
  | m :: rest =>
    if m.char == endChar then throw .malformedSettings
    else if isBreak m.char then
      let (further, rest) ← quotedBreaks rest
      return (foldBreaks m.char further, rest)
    else return (chars blanks, m :: rest)

def simpleEscape? : Char → Option Char
  | '0' => some '\x00'
  | 'a' => some '\x07'
  | 'b' => some '\x08'
  | 't' => some '\t'
  | '\t' => some '\t'
  | 'n' => some '\n'
  | 'v' => some '\x0b'
  | 'f' => some '\x0c'
  | 'r' => some '\r'
  | 'e' => some '\x1b'
  | ' ' => some ' '
  | '"' => some '"'
  | '\\' => some '\\'
  | '/' => some '/'
  | 'N' => some '\x85'
  | '_' => some '\xa0'
  | 'L' => some '\u2028'
  | 'P' => some '\u2029'
  | _ => none

def hexWidth : Char → Nat
  | 'x' => 2
  | 'u' => 4
  | 'U' => 8
  | _ => 0

def readEscape (s : List Mark) : Except Fault (List CodePoint × List Mark) := do
  match s with
  | [] => throw .malformedSettings
  | m :: rest =>
    match simpleEscape? m.char with
    | some c => return ([.char c], rest)
    | none =>
      if isBreak m.char then
        let (further, rest) ← quotedBreaks rest
        return (further.map .char, rest)
      else
        let width := hexWidth m.char
        match hexNumber? (chars (rest.take width)) with
        | none => throw .malformedSettings
        | some code =>
          if width = 0 then throw .malformedSettings
          else if Nat.pow 2 31 ≤ code then throw .characterTooLarge
          else if 0x110000 ≤ code then throw .noCharacter
          else return ([.ofNat code], rest.drop width)

/-- The code points up to the closing quote, and what follows it. Each step takes at least one mark. -/
def quotedWithin (quote : Char) : Nat → List Mark → Except Fault (List CodePoint × List Mark)
  | 0, _ => .error .malformedSettings
  | _ + 1, [] => .error .malformedSettings
  | steps + 1, m :: s =>
    if m.char == quote then
      if quote == '\'' && headChar s == quote then do
        let (inside, rest) ← quotedWithin quote steps (s.drop 1)
        return (.char quote :: inside, rest)
      else .ok ([], s)
    else if quote == '"' && m.char == '\\' then do
      let (escaped, rest) ← readEscape s
      let (inside, rest) ← quotedWithin quote steps rest
      return (escaped ++ inside, rest)
    else if isSeparator m.char then do
      let (blanks, rest) ← quotedBlanks (m :: s)
      let (inside, rest) ← quotedWithin quote steps rest
      return (blanks.map .char ++ inside, rest)
    else do
      let (inside, rest) ← quotedWithin quote steps s
      return (.char m.char :: inside, rest)

def readQuoted (quote : Char) (s : List Mark) : Except Fault (List CodePoint × List Mark) :=
  quotedWithin quote (s.length + 1) s

def isFlowIndicator (c : Char) : Bool :=
  [',', '[', ']', '\x7b', '\x7d'].contains c

/-- A part of a plain scalar stops before a colon that ends a key, and among brackets also before them. -/
def stopsPlain (inFlow : Bool) (c next : Char) : Bool :=
  isSeparator c || (c == ':' && (isSeparator next || (inFlow && isFlowIndicator next))) ||
    (inFlow && (isFlowIndicator c || c == '?'))

def plainRun (inFlow : Bool) : List Mark → List Char × List Mark
  | [] => ([], [])
  | m :: s =>
    if stopsPlain inFlow m.char (headChar s) then ([], m :: s)
    else
      let (run, rest) := plainRun inFlow s
      (m.char :: run, rest)

/-- What stands between two parts of a plain scalar; nothing if the scalar cannot go on. -/
structure Gap where
  text : List Char
  crossesLine : Bool
  rest : List Mark

def plainGap (s : List Mark) : Gap :=
  let spaces := s.takeWhile fun m => m.char == ' '
  match s.dropWhile fun m => m.char == ' ' with
  | [] => ⟨chars spaces, false, []⟩
  | m :: rest =>
    if isBreak m.char then
      match breaksAfter (· == ' ') true rest with
      | (some further, rest) => ⟨foldBreaks m.char further, true, rest⟩
      | (none, rest) => ⟨[], true, rest⟩
    else ⟨chars spaces, false, m :: rest⟩

/-- A plain scalar, with whether a line was crossed after its last part. -/
structure Plain where
  text : List Char
  crossesLine : Bool := false
  rest : List Mark

/-- A plain scalar goes on over line ends as long as its lines are indented far enough. Each step takes one part. -/
def plainWithin (inFlow : Bool) (indent : Int) : Nat → List Mark → Plain
  | 0, s => { text := [], rest := s }
  | steps + 1, s =>
    let (run, rest) := plainRun inFlow s
    let gap := plainGap rest
    let mark := headMark gap.rest
    if gap.text.isEmpty || mark.char == '#' || (!inFlow && (mark.column : Int) < indent) ||
        (plainRun inFlow gap.rest).1.isEmpty then
      ⟨run, gap.crossesLine, gap.rest⟩
    else
      let more := plainWithin inFlow indent steps gap.rest
      { more with text := run ++ gap.text ++ more.text }

def readPlain (inFlow : Bool) (indent : Int) (s : List Mark) : Plain :=
  plainWithin inFlow indent s.length s

def indicators : List Char :=
  ['-', '?', ':', ',', '[', ']', '\x7b', '\x7d', '#', '&', '*', '!', '|', '>', '\'', '"', '%', '@', '\x60']

def startsPlain (inFlow : Bool) (c next : Char) : Bool :=
  !(isSeparator c || indicators.contains c) ||
    (!isSeparator next && (c == '-' || (!inFlow && (c == '?' || c == ':'))))

def afterLineEnd (s : List Mark) : Except Fault (List Mark) :=
  let start := s.dropWhile fun m => m.char == ' '
  let rest := if headChar start == '#' then start.dropWhile fun m => !endsLine m.char else start
  match rest with
  | [] => .ok []
  | m :: after =>
    if isBreak m.char then .ok after else if m.char == endChar then .ok rest else .error .malformedSettings

inductive Chomping where
  | keep
  | strip
  | clip
deriving DecidableEq

structure BlockHeader where
  chomping : Chomping := .clip
  /-- How much further in the lines are than what is around the block, if this is told. -/
  increment : Option Nat := none

def chomping? : Char → Option Chomping
  | '+' => some .keep
  | '-' => some .strip
  | _ => none

/-- The signs after the opening of a block, in any order, each at most once. An indentation of zero is none. -/
def readBlockHeader (s : List Mark) : Except Fault (BlockHeader × List Mark) := do
  let first := chomping? (headChar s)
  let afterFirst := if first.isSome then s.drop 1 else s
  let digit := headChar afterFirst
  let afterDigit := if digit.isDigit then afterFirst.drop 1 else afterFirst
  let last := if first.isNone && digit.isDigit then chomping? (headChar afterDigit) else none
  let rest := if last.isSome then afterDigit.drop 1 else afterDigit
  if digit == '0' then throw .malformedSettings
  let next := headChar rest
  if !(next == ' ' || endsLine next) then throw .malformedSettings
  return ({ chomping := (first.or last).getD .clip
            increment := if digit.isDigit then some (digit.toNat - 48) else none }, rest)

/-- The empty lines before the first line of a block, and the widest run of spaces on them or before that line. -/
def blockIndentation (widest : Nat) : List Mark → List Char × Nat × List Mark
  | [] => ([], widest, [])
  | m :: s =>
    if m.char == ' ' then blockIndentation (max widest (headMark s).column) s
    else if isBreak m.char then
      let (breaks, found, rest) := blockIndentation widest s
      (breakText m.char :: breaks, found, rest)
    else ([], widest, m :: s)

def blockBreaks (indent : Nat) : List Mark → List Char × List Mark
  | [] => ([], [])
  | m :: s =>
    if m.char == ' ' && m.column < indent then blockBreaks indent s
    else if isBreak m.char then
      let (breaks, rest) := blockBreaks indent s
      (breakText m.char :: breaks, rest)
    else ([], m :: s)

def atBlockLine (indent : Nat) (s : List Mark) : Bool :=
  (headMark s).column == indent && headChar s != endChar

/-- What stands between two lines of a block. A folded break before a line without leading blanks is a space. -/
def blockJoint (isFolded startsWithBlank : Bool) (lineBreak next : Char) (breaks : List Char) : List Char :=
  if isFolded && breakText lineBreak == '\n' && !startsWithBlank && !isSpaceOrTab next then
    if breaks.isEmpty then [' '] else breaks
  else breakText lineBreak :: breaks

/-- The lines of a block, the first one given by where it starts. Each step takes one line. -/
def blockLines (isFolded : Bool) (chomping : Chomping) (indent : Nat) : Nat → List Mark → List Char × List Mark
  | 0, s => ([], s)
  | steps + 1, s =>
    let line := chars (s.takeWhile fun m => !endsLine m.char)
    match s.dropWhile fun m => !endsLine m.char with
    | [] => (line, [])
    | m :: after =>
      if m.char == endChar then (line, m :: after)
      else
        let (breaks, rest) := blockBreaks indent after
        if atBlockLine indent rest then
          let (more, last) := blockLines isFolded chomping indent steps rest
          (line ++ blockJoint isFolded (isSpaceOrTab (headChar s)) m.char (headChar rest) breaks ++ more, last)
        else
          let ending := match chomping with
            | .keep => breakText m.char :: breaks
            | .clip => [breakText m.char]
            | .strip => []
          (line ++ ending, rest)

def readBlock (isFolded : Bool) (parent : Int) (s : List Mark) : Except Fault (List Char × List Mark) := do
  let (header, rest) ← readBlockHeader s
  let body ← afterLineEnd rest
  let least := max 1 (parent + 1).toNat
  let (indent, breaks, start) := match header.increment with
    | some n =>
      let indent := least + n - 1
      let (breaks, start) := blockBreaks indent body
      (indent, breaks, start)
    | none =>
      let (breaks, widest, start) := blockIndentation 0 body
      (max least widest, breaks, start)
  if atBlockLine indent start then
    let (lines, last) := blockLines isFolded header.chomping indent start.length start
    return (breaks ++ lines, last)
  else return (if header.chomping = .keep then breaks else [], start)

end ScenarioRunner.Settings.Yaml
