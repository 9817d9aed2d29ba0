/-
The text of a JSON number.

An integer that fits 64 bits, signed or unsigned, is kept exactly; any other
number is rounded to double precision and written with the fewest digits that
read back.  Such a number is written positionally while its decimal point falls
among the first sixteen places or at most five zeros follow the point, and with
an exponent otherwise.
-/
import OntologyModel.Decimal.Text
import OntologyModel.Json.Value

namespace OntologyModel
namespace Json
namespace Number

/-- Whether an integer fits a signed or an unsigned word of 64 bits. -/
def fitsWord (value : Int) : Bool :=
  decide (-Int.ofNat (Nat.pow 2 63) ≤ value) && decide (value < Int.ofNat (Nat.pow 2 64))

/-- The number with the given sign, integer digits, fraction digits and
exponent; none when it is too large.  Minus zero is a real number, because the
integers have one zero only. -/
def ofParts (negative : Bool) (whole : List Char) (fraction : Option (List Char))
    (exponent : Option Int) : Option Number :=
  let n := Decimal.naturalOfDigits whole
  let value : Int := if negative then -(n : Int) else n
  if fraction.isNone && exponent.isNone && fitsWord value && !(negative && n = 0) then
    some (.whole value)
  else
    let places := (fraction.getD []).length
    let all := Decimal.naturalOfDigits (whole ++ fraction.getD [])
    (Decimal.nearest all (exponent.getD 0 - places)).map (.real negative ·)

/-- The digits of `digits · 10 ^ exponent`, which are not all zero, with the
decimal point where the format wants it. -/
def placePoint (digits : List Char) (exponent : Int) : List Char :=
  let length : Int := digits.length
  let point := length + exponent
  if 0 ≤ exponent && point ≤ 16 then
    digits ++ List.replicate exponent.toNat '0' ++ ['.', '0']
  else if 0 < point && point ≤ 16 then
    digits.take point.toNat ++ '.' :: digits.drop point.toNat
  else if -5 < point && point ≤ 0 then
    '0' :: '.' :: (List.replicate (-point).toNat '0' ++ digits)
  else
    let tail := (toString (point - 1)).toList
    match digits with
    | [d] => d :: 'e' :: tail
    | d :: rest => d :: '.' :: (rest ++ 'e' :: tail)
    | [] => tail

def render : Number → List Char
  | .whole value => (toString value).toList
  | .real negative magnitude =>
    let s := Decimal.shortest magnitude
    let body :=
      if s.digits = 0 then ['0', '.', '0'] else placePoint (Nat.toDigits 10 s.digits) s.exponent
    if negative then '-' :: body else body

end Number
end Json
end OntologyModel
