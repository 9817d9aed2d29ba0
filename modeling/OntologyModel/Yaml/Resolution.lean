/-
What a plain YAML scalar stands for.

A plain scalar may read as null, as a truth value or as a number; every other one
is a text.  Integers are decimal, or hexadecimal, octal or binary with `0x`, `0o`
or `0b`, and have at most 128 bits.  Real numbers are finite decimals or the words
for infinity and not-a-number.  Digits after a leading zero are a text, but one
that other readers take for a number.
-/
import OntologyModel.Decimal.Text
import OntologyModel.Json.Reader

namespace OntologyModel
namespace Yaml

def isNullWord (s : String) : Bool := ["null", "Null", "NULL", "~"].contains s

def isBoolWord (s : String) : Bool :=
  ["true", "True", "TRUE", "false", "False", "FALSE"].contains s

/-- Digits after a leading zero, perhaps signed. -/
def isZeroPadded (s : List Char) : Bool :=
  let body := match s with
    | '-' :: r => r
    | '+' :: r => r
    | _ => s
  match body with
  | '0' :: d :: r => (d :: r).all Char.isDigit
  | _ => false

def isNatural (base bound : Nat) (s : List Char) : Bool :=
  !s.isEmpty &&
    s.all (fun c => ((Json.Token.hexValue? c).map fun d => decide (d < base)).getD false) &&
    decide (s.foldl (fun n c => base * n + (Json.Token.hexValue? c).getD 0) 0 < bound)

def radix? : List Char → Option (Nat × List Char)
  | '0' :: 'x' :: r => some (16, r)
  | '0' :: 'o' :: r => some (8, r)
  | '0' :: 'b' :: r => some (2, r)
  | _ => none

/-- Whether a text reads as an integer, of which one below zero may be as far
from it as `bound`. -/
def isMagnitude (bound : Nat) (s : List Char) : Bool :=
  match radix? s with
  | some (base, digits) => isNatural base bound digits
  | none => isNatural 10 bound s

def isInteger (s : List Char) : Bool :=
  !isZeroPadded s &&
    match s with
    | '-' :: r => isMagnitude (Nat.pow 2 127 + 1) r
    | '+' :: r => isMagnitude (Nat.pow 2 128) r
    | _ => isMagnitude (Nat.pow 2 128) s

def isReal (s : String) : Bool :=
  let cs := s.toList
  let unsigned := match cs with
    | '+' :: r => r
    | _ => cs
  [".inf", ".Inf", ".INF"].contains (String.ofList unsigned) ||
    ["-.inf", "-.Inf", "-.INF", ".nan", ".NaN", ".NAN"].contains s ||
    (!isZeroPadded cs &&
      match cs with
      | '+' :: '+' :: _ => false
      | '+' :: '-' :: _ => false
      | _ => ((Decimal.Numeral.parse? unsigned).map fun n => n.nearest.isSome).getD false)

/-- Whether a text, written plainly, would be taken for something else. -/
def isAmbiguous (s : String) : Bool :=
  s = "" || isNullWord s || isBoolWord s || isInteger s.toList || isReal s ||
    isZeroPadded s.toList

end Yaml
end OntologyModel
