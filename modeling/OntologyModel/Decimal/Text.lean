/-
The text of a real number: an optional sign, digits with an optional decimal
point among or around them, and an optional exponent.
-/
import OntologyModel.Decimal.Shortest

namespace OntologyModel
namespace Decimal

def naturalOfDigits (digits : List Char) : Nat :=
  digits.foldl (fun n c => 10 * n + (c.toNat - '0'.toNat)) 0

def splitSign : List Char → Bool × List Char
  | '-' :: s => (true, s)
  | '+' :: s => (false, s)
  | s => (false, s)

/-- A number as it is written: `± whole . fraction · 10 ^ exponent`. -/
structure Numeral where
  negative : Bool
  whole : List Char
  fraction : List Char
  exponent : Int
deriving Repr

namespace Numeral

/-- Reads the exponent that ends a text, zero if there is none. -/
def exponent? : List Char → Option Int
  | [] => some 0
  | e :: rest =>
    if e = 'e' || e = 'E' then
      let (negative, digits) := splitSign rest
      if digits.isEmpty || !digits.all Char.isDigit then none
      else
        let n : Int := naturalOfDigits digits
        some (if negative then -n else n)
    else none

def parse? (s : List Char) : Option Numeral :=
  let (negative, body) := splitSign s
  let whole := body.takeWhile Char.isDigit
  let rest := body.dropWhile Char.isDigit
  let (fraction, rest) :=
    match rest with
    | '.' :: after => (after.takeWhile Char.isDigit, after.dropWhile Char.isDigit)
    | _ => ([], rest)
  if whole.isEmpty && fraction.isEmpty then none
  else (exponent? rest).map fun e => ⟨negative, whole, fraction, e⟩

def nearest (n : Numeral) : Option Binary :=
  Decimal.nearest (naturalOfDigits (n.whole ++ n.fraction)) (n.exponent - n.fraction.length)

end Numeral

/-- A number without an exponent: the digits of its shortest decimal, filled up
with zeros to the decimal point on either side. -/
def positional (b : Binary) : List Char :=
  let s := shortest b
  let digits := Nat.toDigits 10 s.digits
  let point : Int := digits.length + s.exponent
  if 0 ≤ s.exponent then
    if s.digits = 0 then ['0'] else digits ++ List.replicate s.exponent.toNat '0'
  else if 0 < point then digits.take point.toNat ++ '.' :: digits.drop point.toNat
  else '0' :: '.' :: (List.replicate (-point).toNat '0' ++ digits)

end Decimal
end OntologyModel
