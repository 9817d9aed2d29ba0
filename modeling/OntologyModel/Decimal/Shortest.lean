/-
The shortest decimal text of a binary floating-point number.

Of all decimals that round to the number, the one with the fewest digits is
chosen, and of those the nearest.  A grid of `10 ^ p` holds such a decimal
exactly when one of the two grid points around the number rounds to it.
-/
import OntologyModel.Decimal.Nearest

namespace OntologyModel
namespace Decimal

/-- A decimal `digits · 10 ^ exponent`. -/
structure Scientific where
  digits : Nat
  exponent : Int
deriving DecidableEq, Repr

def Binary.quotient (b : Binary) : Nat × Nat :=
  if 0 ≤ b.exponent then (b.significand * Nat.pow 2 b.exponent.toNat, 1)
  else (b.significand, Nat.pow 2 (-b.exponent).toNat)

/-- The two multiples of `10 ^ p` around a quotient, as counts of `10 ^ p`. -/
def gridPoints (num den : Nat) (p : Int) : Nat × Nat :=
  let k := if 0 ≤ p then num / (den * Nat.pow 10 p.toNat) else num * Nat.pow 10 (-p).toNat / den
  (k, k + 1)

/-- How far `k · 10 ^ p` lies from the quotient, in a unit that does not depend
on `k`. -/
def gridDistance (num den : Nat) (p : Int) (k : Nat) : Nat :=
  let (a, b) :=
    if 0 ≤ p then (k * Nat.pow 10 p.toNat * den, num) else (k * den, num * Nat.pow 10 (-p).toNat)
  (a - b) + (b - a)

/-- The grid point of `10 ^ p` that rounds to the number, the nearer of two. -/
def gridHit (b : Binary) (p : Int) : Option Scientific :=
  let (num, den) := b.quotient
  let (low, high) := gridPoints num den p
  let hits := [low, high].filter fun k => nearest k p = some b
  match hits with
  | [] => none
  | k :: rest =>
    let better := fun k k' =>
      decide (gridDistance num den p k' < gridDistance num den p k)
    some ⟨rest.foldl (fun k k' => if better k k' then k' else k) k, p⟩

def shortestFrom (b : Binary) : Nat → Int → Scientific
  | 0, _ => ⟨b.significand, b.exponent⟩
  | fuel + 1, p => (gridHit b p).getD (shortestFrom b fuel (p - 1))

/-- Ten to the power that bounds the number from above, found by its size. -/
def decimalMagnitude (b : Binary) : Int :=
  ((Nat.log2 b.significand : Int) + b.exponent) * 30103 / 100000 + 2

/-- The shortest decimal that rounds to the number.  Seventeen digits always
suffice, and the magnitude may be three too large. -/
def shortest (b : Binary) : Scientific :=
  if b.significand = 0 then ⟨0, 0⟩ else shortestFrom b 22 (decimalMagnitude b)

end Decimal
end OntologyModel
