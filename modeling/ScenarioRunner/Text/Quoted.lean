import ScenarioRunner.Text.Digit
import ScenarioRunner.Text.Printable

/-!
# Quoted text

A text inside a value is shown between single quotes, or between double quotes when it holds a single quote and no
double one. The quote, the backslash and what cannot be printed are escaped.
-/

namespace ScenarioRunner.Text

set_option autoImplicit false

def quoteFor (s : List Char) : Char :=
  if s.contains '\'' && !s.contains '"' then '"' else '\''

def escaped (quote c : Char) : List Char :=
  let n := c.toNat
  if c = quote || c = '\\' then ['\\', c]
  else if c = '\n' then ['\\', 'n']
  else if c = '\r' then ['\\', 'r']
  else if c = '\t' then ['\\', 't']
  else if isPrintable c then [c]
  else if n < 0x100 then '\\' :: 'x' :: hexDigits 2 n
  else if n < 0x10000 then '\\' :: 'u' :: hexDigits 4 n
  else '\\' :: 'U' :: hexDigits 8 n

def quoted (s : List Char) : List Char :=
  let quote := quoteFor s
  quote :: s.flatMap (escaped quote) ++ [quote]

end ScenarioRunner.Text
