import PathRouting.Text.Digit
import PathRouting.Text.Printable

/-!
# Quoted text

A text is quoted with single quotes, or with double quotes if it holds a single quote and no
double one. The quote and the backslash are escaped, as is whatever is not printable.
-/
namespace PathRouting.Text

/-- Double quotes are used only where they save an escape. -/
def chooseQuote (s : List Char) : Char :=
  if s.contains '\'' && !s.contains '"' then '"' else '\''

def quoteChar (quote c : Char) : List Char :=
  if c == quote || c == '\\' then ['\\', c]
  else if c == '\n' then ['\\', 'n']
  else if c == '\r' then ['\\', 'r']
  else if c == '\t' then ['\\', 't']
  else if isPrintable c then [c]
  else if c.toNat < 0x100 then '\\' :: 'x' :: hexDigits 2 c.toNat
  else if c.toNat < 0x10000 then '\\' :: 'u' :: hexDigits 4 c.toNat
  else '\\' :: 'U' :: hexDigits 8 c.toNat

def quoted (s : String) : String :=
  let chars := s.toList
  let quote := chooseQuote chars
  String.ofList (quote :: (chars.flatMap (quoteChar quote) ++ [quote]))

end PathRouting.Text
