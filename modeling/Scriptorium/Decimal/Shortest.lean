/-
The fewest digits that identify a floating-point number.

The numbers that round to `x` form an interval around it, with its ends exactly when the
significand is even. For one, two, … digits the two neighbours of `x` on that decimal grid are
tried: the first grid with a neighbour inside the interval wins, and of two such neighbours the
nearer one, with exact halves decided by a `Tie`.
-/

import Scriptorium.Decimal.Basic
import Scriptorium.Decimal.Binary64

namespace Scriptorium

namespace Binary64

/-! ### The interval and the grid, in a common unit

A number is four times its significand in units of `2 ^ (scale - 2)`, so that the ends of the
interval are whole. `gridSize g` and `unitSize g` are the sizes of a grid step `10 ^ g` and of
that unit in one common measure. -/

/-- The size of `10 ^ g`. -/
def gridSize (x : Binary64) (g : Int) : Nat :=
  Nat.pow 10 g.toNat * Nat.pow 2 (2 - x.scale).toNat

/-- The size of a quarter of the last place. -/
def unitSize (x : Binary64) (g : Int) : Nat :=
  Nat.pow 2 (x.scale - 2).toNat * Nat.pow 10 (-g).toNat

/-- Whether `n` steps of `10 ^ g` round to `x`. -/
def identifies (x : Binary64) (g : Int) (n : Nat) : Bool :=
  let a := n * x.gridSize g
  let low := (4 * x.significand - if x.narrowBelow then 1 else 2) * x.unitSize g
  let high := (4 * x.significand + 2) * x.unitSize g
  if x.significand % 2 = 0 then low ≤ a && a ≤ high else low < a && a < high

/-- The nearest step of the grid `10 ^ g` that identifies `x`, if a neighbour of `x` does. -/
def onGrid (tie : Tie) (x : Binary64) (g : Int) : Option Decimal :=
  let v := 4 * x.significand * x.unitSize g
  let below := v / x.gridSize g
  let above := below + 1
  match x.identifies g below && below != 0, x.identifies g above with
  | false, false => none
  | true, false => some ⟨below, g⟩
  | false, true => some ⟨above, g⟩
  | true, true =>
    let low := v - below * x.gridSize g
    let high := above * x.gridSize g - v
    let takeAbove := high < low || (high == low && (tie == .up || below % 2 == 1))
    some ⟨if takeAbove then above else below, g⟩

/-- A power of ten above `x`, from the binary logarithm. -/
def ceiling (x : Binary64) : Int :=
  (((x.significand.log2 : Int) + x.scale + 1) * 30103) / 100000 + 1

/-- The exact decimal value of `x`. -/
def exactDecimal (x : Binary64) : Decimal :=
  ⟨x.significand * Nat.pow 2 x.scale.toNat * Nat.pow 5 (-x.scale).toNat, min x.scale 0⟩

/-- The shortest decimal that identifies a finite number, zero included. -/
def shortest (tie : Tie) (x : Binary64) : Decimal :=
  if x.significand = 0 then ⟨0, 0⟩
  else
    let tries := (List.range 20).findSome? fun (n : Nat) => x.onGrid tie (x.ceiling - n)
    (tries.getD x.exactDecimal).normalized

end Binary64

end Scriptorium
