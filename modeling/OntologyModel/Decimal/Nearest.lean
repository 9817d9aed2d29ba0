/-
The binary floating-point number nearest to a decimal one.

A number of double precision is `significand · 2 ^ exponent` with a significand
below `2 ^ 53` and an exponent of at least `-1074`.  `nearest` rounds an exact
quotient of naturals to such a number, a tie going to the even significand, and
answers `none` beyond the largest one.
-/
namespace OntologyModel
namespace Decimal

/-- A finite number of double precision, `significand · 2 ^ exponent`, without
its sign. -/
structure Binary where
  significand : Nat
  exponent : Int
deriving DecidableEq, Repr

/-- The integer nearest to `num / den`; a tie goes to the even one. -/
def roundHalfEven (num den : Nat) : Nat :=
  let q := num / den
  let r := num % den
  if 2 * r < den then q
  else if den < 2 * r then q + 1
  else if q % 2 = 0 then q else q + 1

/-- `n · 2 ^ (-shift)` as a quotient of naturals, for a shift of either sign. -/
def scaleBy (num den : Nat) (shift : Int) : Nat × Nat :=
  if 0 ≤ shift then (num, den * Nat.pow 2 shift.toNat) else (num * Nat.pow 2 (-shift).toNat, den)

/-- The exponent at which the quotient `num / den` has a significand of 53 bits. -/
def binaryExponent (num den : Nat) : Int :=
  let guess : Int := (Nat.log2 num : Int) - (Nat.log2 den : Int)
  let (n, d) := scaleBy num den guess
  let top := if n < d then guess - 1 else guess
  max (top - 52) (-1074)

def nearestQuotient (num den : Nat) : Option Binary :=
  if num = 0 then some ⟨0, -1074⟩
  else
    let e := binaryExponent num den
    let (n, d) := scaleBy num den e
    let m := roundHalfEven n d
    let (m, e) := if m = Nat.pow 2 53 then (Nat.pow 2 52, e + 1) else (m, e)
    if 971 < e then none else some ⟨m, e⟩

/-- The number nearest to `digits · 10 ^ exponent`.  Decimals far beyond either
end of the range are decided by their length alone. -/
def nearest (digits : Nat) (exponent : Int) : Option Binary :=
  let size : Int := (Nat.log2 digits : Int) + 4 * exponent
  if digits = 0 then some ⟨0, -1074⟩
  else if 8192 < size then none
  else if size < -(8192 + 4 * (Nat.log2 digits : Int)) then some ⟨0, -1074⟩
  else if 0 ≤ exponent then nearestQuotient (digits * Nat.pow 10 exponent.toNat) 1
  else nearestQuotient digits (Nat.pow 10 (-exponent).toNat)

end Decimal
end OntologyModel
