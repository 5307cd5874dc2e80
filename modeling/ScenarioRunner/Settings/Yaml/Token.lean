import ScenarioRunner.Decimal.Limit
import ScenarioRunner.Settings.Yaml.Scalar
import ScenarioRunner.Text.Utf8

/-!
# Tokens of a settings file

Indentation is turned into tokens that open and close what is indented. A key is recognised by the colon after it, so
the token for the key goes in front of tokens that have been read already; it stands on one line with its colon and not
too far from it. A place that cannot be read is a token as well, the last one, so that whoever reads the tokens in order
finds what is wrong only if nothing is wrong before it.
-/

namespace ScenarioRunner.Settings.Yaml

open ScenarioRunner.Text

set_option autoImplicit false

inductive Directive where
  | version (major : Nat)
  | tagHandle (handle lead : List Char)
  | other
deriving DecidableEq, Repr

inductive Token where
  | directive (d : Directive)
  | documentStart
  | documentEnd
  | blockListStart
  | blockMappingStart
  | blockEnd
  | flowListStart
  | flowListEnd
  | flowMappingStart
  | flowMappingEnd
  | dash
  | comma
  | key
  | value
  | alias (name : List Char)
  | anchor (name : List Char)
  | tag (handle : Option (List Char)) (suffix : List Char)
  | scalar (text : List CodePoint) (isPlain : Bool)
  | streamEnd
  | unreadable (reason : Fault)
deriving DecidableEq, Repr

/-- A place where a key may have started: how many tokens stand before it, and whether a colon must follow. -/
structure KeyStart where
  number : Nat
  isRequired : Bool
  mark : Mark

structure Lexer where
  rest : List Mark
  /-- The last token first. -/
  tokens : List Token := []
  count : Nat := 0
  /-- The columns of what is indented around this place, the innermost first. -/
  indents : List Int := []
  flowLevel : Nat := 0
  /-- At most one start for each level of brackets. -/
  keyStarts : List (Nat × KeyStart) := []
  mayStartKey : Bool := true

def Lexer.here (l : Lexer) : Mark :=
  headMark l.rest

def Lexer.indent (l : Lexer) : Int :=
  l.indents.headD (-1)

def Lexer.inFlow (l : Lexer) : Bool :=
  l.flowLevel != 0

def Lexer.emit (l : Lexer) (t : Token) : Lexer :=
  { l with tokens := t :: l.tokens, count := l.count + 1 }

def Lexer.insert (l : Lexer) (number : Nat) (t : Token) : Lexer :=
  let after := l.count - number
  { l with tokens := l.tokens.take after ++ t :: l.tokens.drop after, count := l.count + 1 }

def Lexer.skip (l : Lexer) (n : Nat) : Lexer :=
  { l with rest := l.rest.drop n }

def keyLimit : Nat := 1024

def KeyStart.isStale (k : KeyStart) (here : Mark) : Bool :=
  k.mark.line != here.line || k.mark.offset + keyLimit < here.offset

def Lexer.dropStale (l : Lexer) : Except Fault Lexer :=
  let (stale, kept) := l.keyStarts.partition fun entry => entry.2.isStale l.here
  if stale.any fun entry => entry.2.isRequired then .error .malformedSettings else .ok { l with keyStarts := kept }

def Lexer.forgetKey (l : Lexer) : Except Fault Lexer :=
  match l.keyStarts.lookup l.flowLevel with
  | some start =>
    if start.isRequired then .error .malformedSettings
    else .ok { l with keyStarts := l.keyStarts.filter fun entry => entry.1 != l.flowLevel }
  | none => .ok l

/-- A key may start here. In the column of an indented mapping it must. -/
def Lexer.noteKey (l : Lexer) : Except Fault Lexer := do
  if !l.mayStartKey then return l
  let l ← l.forgetKey
  let start : KeyStart :=
    { number := l.count, isRequired := !l.inFlow && l.indent == l.here.column, mark := l.here }
  return { l with keyStarts := (l.flowLevel, start) :: l.keyStarts }

/-- Closes what is indented further than the column. Among brackets indentation does not count. -/
def Lexer.unwind (l : Lexer) (column : Int) : Lexer :=
  if l.inFlow then l
  else
    let kept := l.indents.dropWhile (column < ·)
    let closed := l.indents.length - kept.length
    { l with
      indents := kept
      tokens := List.replicate closed .blockEnd ++ l.tokens
      count := l.count + closed }

def Lexer.openBlock (l : Lexer) (column : Int) (number : Nat) (t : Token) : Lexer :=
  if !l.inFlow && l.indent < column then { l with indents := column :: l.indents }.insert number t else l

def skipGap (inComment crossed : Bool) : List Mark → List Mark × Bool
  | [] => ([], crossed)
  | m :: s =>
    if isBreak m.char then skipGap false true s
    else if m.char == endChar then (m :: s, crossed)
    else if inComment || m.char == '#' then skipGap true crossed s
    else if m.char == ' ' then skipGap false crossed s
    else (m :: s, crossed)

def Lexer.toNextToken (l : Lexer) : Lexer :=
  let start := if l.here.offset = 0 && l.here.char == '\uFEFF' then l.rest.drop 1 else l.rest
  let (rest, crossed) := skipGap false false start
  { l with rest, mayStartKey := l.mayStartKey || (crossed && !l.inFlow) }

/-- What starts a document, ends one or stands before one closes everything that is open. -/
def Lexer.betweenDocuments (l : Lexer) : Except Fault Lexer := do
  return { ← (l.unwind (-1)).forgetKey with mayStartKey := false }

def isWordChar (c : Char) : Bool :=
  c.isAlphanum || c == '-' || c == '_'

def readWord (s : List Mark) : List Char × List Mark :=
  (chars (s.takeWhile fun m => isWordChar m.char), s.dropWhile fun m => isWordChar m.char)

def skipSpaces (s : List Mark) : List Mark :=
  s.dropWhile fun m => m.char == ' '

def endsWordOfLine (c : Char) : Bool :=
  c == ' ' || endsLine c

def readVersionPart (s : List Mark) : Except Fault (Nat × List Mark) := do
  let digits := chars (s.takeWhile fun m => m.char.isDigit)
  if digits.isEmpty then throw .malformedSettings
  return (← Decimal.readNumeral digits, s.dropWhile fun m => m.char.isDigit)

/-- Exclamation marks around a word that may be missing, or one of them alone. -/
def readHandle (s : List Mark) : Except Fault (List Char × List Mark) := do
  if headChar s != '!' then throw .malformedSettings
  let (word, rest) := readWord (s.drop 1)
  if word.isEmpty && headChar rest == ' ' then return (['!'], rest)
  if headChar rest != '!' then throw .malformedSettings
  return ('!' :: word ++ ['!'], rest.drop 1)

def isUriChar (c : Char) : Bool :=
  c.isAlphanum || "-;/?:@&=+$,_.!~*'()[]%".toList.contains c

/-- The bytes behind percent signs in a row. Each step takes one byte. -/
def uriBytes : Nat → List Mark → Except Fault (List UInt8 × List Mark)
  | 0, s => .ok ([], s)
  | steps + 1, s =>
    if headChar s != '%' then .ok ([], s)
    else
      match hexNumber? (chars ((s.drop 1).take 2)) with
      | none => .error .malformedSettings
      | some byte => do
        let (bytes, rest) ← uriBytes steps (s.drop 3)
        return (UInt8.ofNat byte :: bytes, rest)

/-- Each step takes at least one mark. -/
def uriWithin : Nat → List Mark → Except Fault (List Char × List Mark)
  | 0, s => .ok ([], s)
  | steps + 1, s => do
    if headChar s == '%' then
      let (bytes, rest) ← uriBytes s.length s
      match decodeUtf8? bytes with
      | none => throw .malformedSettings
      | some text =>
        let (more, rest) ← uriWithin steps rest
        return (text ++ more, rest)
    else if isUriChar (headChar s) then
      let (more, rest) ← uriWithin steps (s.drop 1)
      return (headChar s :: more, rest)
    else return ([], s)

def readUri (s : List Mark) : Except Fault (List Char × List Mark) := do
  if !isUriChar (headChar s) then throw .malformedSettings
  uriWithin s.length s

def readDirectiveValue (name : List Char) (s : List Mark) : Except Fault (Directive × List Mark) := do
  if name == "YAML".toList then
    let (major, rest) ← readVersionPart (skipSpaces s)
    if headChar rest != '.' then throw .malformedSettings
    let (_, rest) ← readVersionPart (rest.drop 1)
    if !endsWordOfLine (headChar rest) then throw .malformedSettings
    return (.version major, rest)
  else if name == "TAG".toList then
    let (handle, rest) ← readHandle (skipSpaces s)
    if headChar rest != ' ' then throw .malformedSettings
    let (lead, rest) ← readUri (skipSpaces rest)
    if !endsWordOfLine (headChar rest) then throw .malformedSettings
    return (.tagHandle handle lead, rest)
  else return (.other, s.dropWhile fun m => !endsLine m.char)

def Lexer.readDirective (l : Lexer) : Except Fault Lexer := do
  let l ← l.betweenDocuments
  let (name, rest) := readWord (l.rest.drop 1)
  if name.isEmpty || !endsWordOfLine (headChar rest) then throw .malformedSettings
  let (directive, rest) ← readDirectiveValue name rest
  return { l with rest := ← afterLineEnd rest }.emit (.directive directive)

def Lexer.readDocumentSign (l : Lexer) (t : Token) : Except Fault Lexer := do
  return ((← l.betweenDocuments).skip 3).emit t

def Lexer.openFlow (l : Lexer) (t : Token) : Except Fault Lexer := do
  let l ← l.noteKey
  return ({ l with flowLevel := l.flowLevel + 1, mayStartKey := true }.skip 1).emit t

def Lexer.closeFlow (l : Lexer) (t : Token) : Except Fault Lexer := do
  let l ← l.forgetKey
  return ({ l with flowLevel := l.flowLevel - 1, mayStartKey := false }.skip 1).emit t

def Lexer.readComma (l : Lexer) : Except Fault Lexer := do
  return ({ ← l.forgetKey with mayStartKey := true }.skip 1).emit .comma

def Lexer.readDash (l : Lexer) : Except Fault Lexer := do
  if !l.inFlow && !l.mayStartKey then throw .malformedSettings
  let l := l.openBlock l.here.column l.count .blockListStart
  return ({ ← l.forgetKey with mayStartKey := true }.skip 1).emit .dash

def Lexer.readKeySign (l : Lexer) : Except Fault Lexer := do
  if !l.inFlow && !l.mayStartKey then throw .malformedSettings
  let l := l.openBlock l.here.column l.count .blockMappingStart
  return ({ ← l.forgetKey with mayStartKey := !l.inFlow }.skip 1).emit .key

def Lexer.readColon (l : Lexer) : Except Fault Lexer := do
  match l.keyStarts.lookup l.flowLevel with
  | some start =>
    let l := { l with keyStarts := l.keyStarts.filter fun entry => entry.1 != l.flowLevel }
    let l := (l.insert start.number .key).openBlock start.mark.column start.number .blockMappingStart
    return ({ l with mayStartKey := false }.skip 1).emit .value
  | none =>
    if !l.inFlow && !l.mayStartKey then throw .malformedSettings
    let l := l.openBlock l.here.column l.count .blockMappingStart
    return ({ ← l.forgetKey with mayStartKey := !l.inFlow }.skip 1).emit .value

def Lexer.readName (l : Lexer) (token : List Char → Token) : Except Fault Lexer := do
  let l ← l.noteKey
  let (name, rest) := readWord (l.rest.drop 1)
  let next := headChar rest
  if name.isEmpty || !(isSeparator next || ['?', ':', ',', ']', '\x7d', '%', '@', '\x60'].contains next) then
    throw .malformedSettings
  return { l with rest, mayStartKey := false }.emit (token name)

/-- The handle and the suffix of a tag. A tag in angle brackets has no handle, and neither has one without a name. -/
def readTag (s : List Mark) : Except Fault (Token × List Mark) := do
  let next := headChar (s.drop 1)
  if next == '<' then
    let (suffix, rest) ← readUri (s.drop 2)
    if headChar rest != '>' then throw .malformedSettings
    return (.tag none suffix, rest.drop 1)
  else if isSeparator next then return (.tag none ['!'], s.drop 1)
  else
    let word := (s.drop 1).takeWhile fun m => !endsWordOfLine m.char
    if word.any fun m => m.char == '!' then
      let (handle, rest) ← readHandle s
      let (suffix, rest) ← readUri rest
      return (.tag (some handle) suffix, rest)
    else
      let (suffix, rest) ← readUri (s.drop 1)
      return (.tag (some ['!']) suffix, rest)

def Lexer.readTagToken (l : Lexer) : Except Fault Lexer := do
  let l ← l.noteKey
  let (token, rest) ← readTag l.rest
  if !endsWordOfLine (headChar rest) then throw .malformedSettings
  return { l with rest, mayStartKey := false }.emit token

def Lexer.readBlockToken (l : Lexer) (isFolded : Bool) : Except Fault Lexer := do
  let l ← l.forgetKey
  let (text, rest) ← readBlock isFolded l.indent (l.rest.drop 1)
  return { l with rest, mayStartKey := true }.emit (.scalar (text.map .char) false)

def Lexer.readQuotedToken (l : Lexer) (quote : Char) : Except Fault Lexer := do
  let l ← l.noteKey
  let (text, rest) ← readQuoted quote (l.rest.drop 1)
  return { l with rest, mayStartKey := false }.emit (.scalar text false)

/-- After a plain scalar that crossed a line a key may start. -/
def Lexer.readPlainToken (l : Lexer) : Except Fault Lexer := do
  let l ← l.noteKey
  let plain := readPlain l.inFlow (l.indent + 1) l.rest
  return { l with rest := plain.rest, mayStartKey := plain.crossesLine }.emit (.scalar (plain.text.map .char) true)

def Lexer.readToken (l : Lexer) : Except Fault Lexer :=
  let c := l.here.char
  let next := headChar (l.rest.drop 1)
  let atLineStart := l.here.column == 0
  if c == '%' && atLineStart then l.readDirective
  else if atLineStart && isDocumentSign documentStart l.rest then l.readDocumentSign .documentStart
  else if atLineStart && isDocumentSign documentEnd l.rest then l.readDocumentSign .documentEnd
  else if c == '[' then l.openFlow .flowListStart
  else if c == '\x7b' then l.openFlow .flowMappingStart
  else if c == ']' then l.closeFlow .flowListEnd
  else if c == '\x7d' then l.closeFlow .flowMappingEnd
  else if c == ',' then l.readComma
  else if c == '-' && isSeparator next then l.readDash
  else if c == '?' && (l.inFlow || isSeparator next) then l.readKeySign
  else if c == ':' && (l.inFlow || isSeparator next) then l.readColon
  else if c == '*' then l.readName .alias
  else if c == '&' then l.readName .anchor
  else if c == '!' then l.readTagToken
  else if c == '|' && !l.inFlow then l.readBlockToken false
  else if c == '>' && !l.inFlow then l.readBlockToken true
  else if c == '\'' || c == '"' then l.readQuotedToken c
  else if startsPlain l.inFlow c next then l.readPlainToken
  else .error .malformedSettings

def Lexer.finish (l : Lexer) : Except Fault Lexer := do
  return { ← (l.unwind (-1)).forgetKey with keyStarts := [] }.emit .streamEnd

/-- The tokens in front of the first one that may still become a key. -/
def Lexer.certain (l : Lexer) : List Token :=
  let number := l.keyStarts.foldl (fun least entry => min least entry.2.number) l.count
  l.tokens.drop (l.count - number)

def Lexer.step (l : Lexer) : Except Fault (Bool × Lexer) := do
  let l ← l.toNextToken.dropStale
  let l := l.unwind l.here.column
  if l.here.char == endChar then return (true, ← l.finish) else return (false, ← l.readToken)

/-- Each step takes at least one mark, or else the end. -/
def Lexer.readAll : Nat → Lexer → List Token
  | 0, l => (.unreadable .malformedSettings :: l.tokens).reverse
  | steps + 1, l =>
    match l.dropStale with
    | .error reason => (.unreadable reason :: l.certain).reverse
    | .ok l =>
      match l.step with
      | .error reason => (.unreadable reason :: l.certain).reverse
      | .ok (true, l) => l.tokens.reverse
      | .ok (false, l) => l.readAll steps

/-- The tokens of a text. The last one is the end, or what cannot be read. -/
def tokens (s : List Mark) : List Token :=
  Lexer.readAll (s.length + 1) { rest := s }

end ScenarioRunner.Settings.Yaml
