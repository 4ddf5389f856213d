/-
The floating-point number nearest to a decimal; an exact half goes to the even significand.

The quotient of two natural numbers is scaled so that it has fifty-three binary places, or ends
at the smallest step, and is rounded once. Decimals far beyond the range are decided by their
leading exponent alone, so that no power of ten is larger than the range asks for.
-/

import Scriptorium.Decimal.Basic
import Scriptorium.Decimal.Binary64

namespace Scriptorium

namespace Decimal

/-- The scale at which `num / den` has a significand of fifty-three places, but no step below
the smallest one. -/
def scaleOf (num den : Nat) : Int :=
  let rough : Int := (num.log2 : Int) - (den.log2 : Int) - 53
  let scaled := num * Nat.pow 2 (-rough).toNat / (den * Nat.pow 2 rough.toNat)
  max (-1074) (if 0x20000000000000 ≤ scaled then rough + 1 else rough)

/-- The place, among the magnitudes, of the number nearest to `num / den`. -/
def nearestIndex (num den : Nat) : Nat :=
  let q := scaleOf num den
  let m := roundDiv (num * Nat.pow 2 (-q).toNat) (den * Nat.pow 2 q.toNat)
  (q + 1074).toNat * 0x10000000000000 + m

/-- The floating-point number nearest to a decimal. -/
def toBinary64 (negative : Bool) (d : Decimal) : Binary64 :=
  if d.digits = 0 then .ofIndex negative 0
  else if d.leading > 310 then .ofIndex negative (2047 * 0x10000000000000)
  else if d.leading < -330 then .ofIndex negative 0
  else .ofIndex negative
    (nearestIndex (d.digits * Nat.pow 10 d.exponent.toNat) (Nat.pow 10 (-d.exponent).toNat))

end Decimal

end Scriptorium
