/-
Literals and their canonical text.

A literal of a numeric or boolean datatype stands for a value, and is kept with
the canonical text of that value: integers and decimals without a plus sign,
leading zeros or trailing zeros of the fraction, doubles with the fewest digits
and no exponent, booleans as words.  A text that
denotes no value of its datatype is kept as it is.

Floats, dates, times and durations stand for values as well, and a store may
give them another text too.  Here they are kept as they are.  No theorem about all
datasets looks into `storedText`.
-/
import OntologyModel.Decimal.Text
import OntologyModel.Graph.Vocabulary

namespace OntologyModel

inductive LiteralTag where
  | plain
  | language (tag : String)
  | datatype (iri : String)
deriving DecidableEq, Repr

namespace Literal

open Decimal (naturalOfDigits splitSign)

/-- The canonical text of an integer of at most 64 bits. -/
def integerText? (s : List Char) : Option (List Char) :=
  let (negative, digits) := splitSign s
  if digits.isEmpty || !digits.all Char.isDigit then none
  else
    let n := naturalOfDigits digits
    let value : Int := if negative then -(n : Int) else n
    let bound := Int.ofNat (Nat.pow 2 63)
    if decide (-bound ≤ value) && decide (value < bound) then
      some (toString value).toList
    else none

def trimFraction (digits : List Char) : List Char :=
  (digits.reverse.dropWhile (· = '0')).reverse

/-- The canonical text of a decimal.  Decimals have 18 places after the point and
127 bits, the places included. -/
def decimalText? (s : List Char) : Option (List Char) :=
  let (negative, body) := splitSign s
  let whole := body.takeWhile Char.isDigit
  let rest := body.dropWhile Char.isDigit
  let fraction? : Option (List Char) :=
    match rest with
    | [] => some []
    | '.' :: ds => if ds.all Char.isDigit then some ds else none
    | _ => none
  match fraction? with
  | none => none
  | some fraction =>
    if (whole.isEmpty && fraction.isEmpty) || 18 < fraction.length then none
    else
      let scaled := naturalOfDigits (whole ++ fraction) * Nat.pow 10 (18 - fraction.length)
      if scaled < Nat.pow 2 127 + (if negative then 1 else 0) then
        let places := trimFraction fraction
        let body :=
          Nat.toDigits 10 (naturalOfDigits whole) ++ if places.isEmpty then [] else '.' :: places
        some (if negative && scaled != 0 then '-' :: body else body)
      else none

def booleanText? (s : String) : Option String :=
  if s = "true" || s = "1" then some "true"
  else if s = "false" || s = "0" then some "false"
  else none

/-- The canonical text of a number of double precision: its shortest decimal
without an exponent, or the word for an infinite one. -/
def doubleText? (s : List Char) : Option (List Char) :=
  (Decimal.Numeral.parse? s).map fun n =>
    let body := (n.nearest.map Decimal.positional).getD "INF".toList
    if n.negative then '-' :: body else body

def integerTypes : List String :=
  ["integer", "byte", "short", "int", "long", "unsignedByte", "unsignedShort", "unsignedInt",
    "unsignedLong", "positiveInteger", "negativeInteger", "nonPositiveInteger",
    "nonNegativeInteger"]

def valueText? (datatype text : String) : Option String :=
  let xsd := fun name => Vocabulary.xsdNamespace ++ name
  if (integerTypes.map xsd).contains datatype then
    (integerText? text.toList).map String.ofList
  else if datatype = xsd "decimal" then (decimalText? text.toList).map String.ofList
  else if datatype = xsd "double" then (doubleText? text.toList).map String.ofList
  else if datatype = xsd "boolean" then booleanText? text
  else none

def storedText (text : String) : LiteralTag → String
  | .datatype iri => (valueText? iri text).getD text
  | _ => text

end Literal
end OntologyModel
