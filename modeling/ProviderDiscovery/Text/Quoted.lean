import ProviderDiscovery.Text.Extending
import ProviderDiscovery.Text.Unprintable

/-!
# Quoted text

The form in which descriptions and error texts show a string that may hold anything: between
quotation marks, on one line, with an escape for every character that would break the line, end
the quotation or be invisible.
-/

namespace ProviderDiscovery.Text

/-- The number of a code point in an escape: lower-case hexadecimal, in braces. -/
def codePointEscape (c : Char) : List Char :=
  ['\\', 'u', '\x7b'] ++ Nat.toDigits 16 c.toNat ++ ['\x7d']

/-- One character of a quoted text. Tabs, line ends, the null character, quotation marks and
backslashes have short escapes; other characters that cannot be seen by themselves are written by
number. -/
def quoteChar (c : Char) : List Char :=
  if c = '\x00' then ['\\', '0']
  else if c = '\t' then ['\\', 't']
  else if c = '\r' then ['\\', 'r']
  else if c = '\n' then ['\\', 'n']
  else if c = '"' then ['\\', '"']
  else if c = '\\' then ['\\', '\\']
  else if isExtending c || isUnprintable c then codePointEscape c
  else [c]

/-- A text between quotation marks, every character as `quoteChar` writes it. -/
def quote (s : String) : String :=
  String.ofList ('"' :: s.toList.flatMap quoteChar ++ ['"'])

end ProviderDiscovery.Text
