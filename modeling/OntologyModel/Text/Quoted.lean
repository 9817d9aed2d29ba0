/-
Texts in quotation marks, as messages show them.

The quotation mark and the backslash are escaped, and so is every character that
could not be told from its picture; the most frequent of those have short
escapes.
-/
import OntologyModel.Json.Printer
import OntologyModel.Text.Unshown

namespace OntologyModel
namespace Text

/-- The hexadecimal digits of a number without leading zeros; `fuel` bounds their
count. -/
def hexDigits : Nat → Nat → List Char
  | 0, _ => []
  | fuel + 1, n =>
    if n < 16 then [Json.hexDigit n] else hexDigits fuel (n / 16) ++ [Json.hexDigit (n % 16)]

def quotedChar (c : Char) : List Char :=
  if c = '"' || c = '\\' then ['\\', c]
  else if c = '\n' then ['\\', 'n']
  else if c = '\r' then ['\\', 'r']
  else if c = '\t' then ['\\', 't']
  else if c.toNat = 0 then ['\\', '0']
  else if isShown c then [c]
  else ['\\', 'u', '\x7b'] ++ hexDigits 8 c.toNat ++ ['\x7d']

def quoted (s : String) : String :=
  String.ofList ('"' :: s.toList.flatMap quotedChar ++ ['"'])

end Text
end OntologyModel
