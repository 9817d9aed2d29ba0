/-
The text of a count.

A count is written with decimal digits, any number of leading zeros among them,
and perhaps a plus sign in front.  It has at most 64 bits; a larger number is no
count, whatever the length of its text.
-/
import OntologyModel.Decimal.Text

namespace OntologyModel
namespace Count

/-- The value of a text that consists of digits, at least one. -/
def ofDigits? (s : List Char) : Option Nat :=
  if s.isEmpty || !s.all Char.isDigit then none else some (Decimal.naturalOfDigits s)

def dropPlus : List Char → List Char
  | '+' :: s => s
  | s => s

def ofText? (s : String) : Option UInt64 :=
  match ofDigits? (dropPlus s.toList) with
  | some n => if n < Nat.pow 2 64 then some (UInt64.ofNat n) else none
  | none => none

def render (n : UInt64) : List Char := Nat.toDigits 10 n.toNat

end Count
end OntologyModel
