import HostProfile.Decimal.Reading

/-! Reading a decimal in two steps, its digits and then its power of ten, each of which is rounded.
The result is near the decimal but not always the nearest. -/
namespace HostProfile

namespace Decimal

/-- Drops digits from the end until 64 bits hold the rest. -/
def fitWord (digits : Nat) (exponent : Int) : Nat × Int :=
  if digits < UInt64.size then (digits, exponent) else fitWord (digits / 10) (exponent + 1)
  termination_by digits
  decreasing_by
    have : 0 < UInt64.size := by decide
    omega

end Decimal

namespace Binary64

/-- The number nearest to `num / den * 2 ^ exponent`. -/
def ofScaledRatio (negative : Bool) (num den : Nat) (exponent : Int) : Binary64 :=
  ofRatio negative (num * Nat.pow 2 exponent.toNat) (den * Nat.pow 2 (-exponent).toNat)

/-- The product with the number nearest to `10 ^ k`, or for negative `k` the quotient by the one
nearest to `10 ^ -k`. -/
def scale (x : Binary64) (k : Int) : Binary64 :=
  match x, ofDecimal false 1 k.natAbs with
  | .finite negative 0 q, _ => .finite negative 0 q
  | .finite negative m q, .finite _ m' q' =>
    if 0 ≤ k then ofScaledRatio negative (m * m') 1 (q + q')
    else ofScaledRatio negative m m' (q - q')
  | .finite negative _ _, _ => if 0 ≤ k then .infinite negative else .finite negative 0 (-1074)
  | x, _ => x

end Binary64

/-- The number that a decimal gives step by step. A power too small to be a divisor is split in
two. -/
def Decimal.Parts.stepwise (p : Parts) : Binary64 :=
  let (digits, k) := fitWord p.digits p.exponent
  let x := Binary64.ofDecimal p.negative digits 0
  if k < -308 then (x.scale (-308)).scale (k + 308) else x.scale k

end HostProfile
