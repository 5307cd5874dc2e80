import ScenarioRunner.Text.Digit
import ScenarioRunner.Text.Lines
import ScenarioRunner.Text.Utf8

/-!
# Paths

A path is a sequence of names, absolute if it has a root. Empty names and single dots are left out when a path is read;
double dots stay, because what they mean depends on the files.
-/

namespace ScenarioRunner.Files

open ScenarioRunner.Text

set_option autoImplicit false

structure Path where
  root : String := ""
  names : List String := []
deriving DecidableEq, Repr

/-- Exactly two slashes at the start are a root of their own; more of them are one. -/
def rootOf (s : List Char) : String :=
  match (s.takeWhile (· == '/')).length with
  | 0 => ""
  | 2 => "//"
  | _ => "/"

def Path.ofText (text : String) : Path where
  root := rootOf text.toList
  names := ((pieces '/' text.toList).map String.ofList).filter fun name => name != "" && name != "."

def Path.isAbsolute (p : Path) : Bool :=
  p.root != ""

/-- A path without root and names is the current directory. -/
def Path.text (p : Path) : String :=
  if p.root == "" && p.names.isEmpty then "." else p.root ++ "/".intercalate p.names

/-- An absolute path replaces what it is joined to. -/
def Path.join (p q : Path) : Path :=
  if q.isAbsolute then q else { p with names := p.names ++ q.names }

def Path.child (p : Path) (name : String) : Path :=
  p.join (Path.ofText name)

def Path.parent (p : Path) : Path :=
  { p with names := p.names.dropLast }

def Path.parts (p : Path) : List String :=
  (if p.isAbsolute then [p.root] else []) ++ p.names

/-- The absolute path without double dots, each taken back with the name before it. Every root is the same one. -/
def Path.resolve (workingDir p : Path) : Path where
  root := "/"
  names := (workingDir.join p).names.foldl
    (fun done name => if name == ".." then done.dropLast else done ++ [name]) []

def Path.hasNull (p : Path) : Bool :=
  p.names.any fun name => name.toList.contains '\x00'

def isUriChar (byte : UInt8) : Bool :=
  let c := Char.ofNat byte.toNat
  byte.toNat < 128 && (c.isAlphanum || ['_', '.', '-', '~', '/'].contains c)

def upperHexDigit (n : Nat) : Char :=
  Char.ofNat (if n < 10 then 48 + n else 55 + n)

def percentEncode (byte : UInt8) : List Char :=
  if isUriChar byte then [Char.ofNat byte.toNat]
  else ['%', upperHexDigit (byte.toNat / 16), upperHexDigit (byte.toNat % 16)]

def Path.uri (p : Path) : String :=
  "file://" ++ String.ofList ((encodeUtf8 p.text).flatMap percentEncode)

end ScenarioRunner.Files
