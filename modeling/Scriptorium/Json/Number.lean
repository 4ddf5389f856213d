/-
Numbers in JSON texts.

A number is kept as it is written. As a floating-point number it is read with sixty-four bits of
its digits and one multiplication or division by a power of ten, each rounded; this is coarser
than rounding once, and a magnitude beyond the greatest finite number is refused.
-/

import Scriptorium.Decimal.Reading
import Scriptorium.Decimal.Rounding

namespace Scriptorium

/-! ### Arithmetic, rounded -/

namespace Binary64

/-- The number nearest to `num / den`. -/
def ofRatio (num den : Nat) : Binary64 :=
  if num = 0 then .ofIndex false 0 else .ofIndex false (Decimal.nearestIndex num den)

/-- The magnitude of a finite number as a fraction. -/
def ratio (x : Binary64) : Nat × Nat :=
  (x.significand * Nat.pow 2 x.scale.toNat, Nat.pow 2 (-x.scale).toNat)

/-- The power of ten nearest to `10 ^ k`. -/
def powerOfTen (k : Nat) : Binary64 :=
  ofRatio (Nat.pow 10 k) 1

/-- The rounded product of two magnitudes. -/
def mul (x y : Binary64) : Binary64 :=
  ofRatio (x.ratio.1 * y.ratio.1) (x.ratio.2 * y.ratio.2)

/-- The rounded quotient of two magnitudes. -/
def div (x y : Binary64) : Binary64 :=
  ofRatio (x.ratio.1 * y.ratio.2) (x.ratio.2 * y.ratio.1)

end Binary64

namespace Json

/-- A number as it is written. -/
structure Number where
  negative : Bool
  whole : List Char
  fraction : List Char := []
  /-- The exponent, if one is written. -/
  exponent : Option Int := none
deriving DecidableEq, Repr

namespace Number

/-! ### Syntax -/

/-- The digits before the point: a zero alone, or digits that begin with no zero. -/
def validWhole : List Char → Bool
  | [] => false
  | ['0'] => true
  | c :: _ => c != '0'

/-- The exponent at the end of a number; only what begins one can follow the digits. -/
def exponent? : List Char → Option (Option Int)
  | [] => some none
  | c :: s => if c = 'e' ∨ c = 'E' then (Decimal.exponentValue? s).map some else none

/-- The fraction and the exponent behind the whole digits. -/
def tail? : List Char → Option (List Char × Option Int)
  | '.' :: s =>
    let (fraction, rest) := Decimal.digitRun s
    if fraction.isEmpty then none else (exponent? rest).map (fraction, ·)
  | s => (exponent? s).map ([], ·)

/-- Reads a number without a sign. -/
def ofUnsigned? (negative : Bool) (s : List Char) : Option Number :=
  let (whole, rest) := Decimal.digitRun s
  if validWhole whole then
    (tail? rest).map fun (fraction, exponent) => ⟨negative, whole, fraction, exponent⟩
  else none

/-- Reads a number. -/
def ofChars? : List Char → Option Number
  | '-' :: s => ofUnsigned? true s
  | s => ofUnsigned? false s

/-! ### Values -/

/-- The value of a number without fraction and exponent, unless it is a negative zero. -/
def int? (n : Number) : Option Int :=
  let magnitude := Text.ofDigits 10 n.whole
  if n.fraction.isEmpty && n.exponent.isNone && !(n.negative && magnitude == 0) then
    some (if n.negative then -magnitude else magnitude)
  else none

/-- Adds digits to a significand as long as it stays below `2 ^ 64`; yields the digits left. -/
def absorb (significand : Nat) : List Char → Nat × List Char
  | [] => (significand, [])
  | c :: s =>
    let next := significand * 10 + (c.toNat - 0x30)
    if next < 0x10000000000000000 then absorb next s else (significand, c :: s)

/-- `significand * 10 ^ exponent`, unless it is out of range. -/
def scaled (significand : Nat) (exponent : Int) : Option Binary64 :=
  let x := Binary64.ofRatio significand 1
  let finite (y : Binary64) := if y.isFinite then some y else none
  if significand = 0 then some x
  else if exponent > 308 then none
  else if exponent ≥ 0 then finite (x.mul (.powerOfTen exponent.toNat))
  else if exponent ≥ -308 then some (x.div (.powerOfTen (-exponent).toNat))
  else if exponent ≥ -616 then
    some ((x.div (.powerOfTen 308)).div (.powerOfTen (-exponent - 308).toNat))
  else some (.ofIndex false 0)

/-- The floating-point value, unless it is out of range. -/
def float? (n : Number) : Option Binary64 :=
  let (high, dropped) := absorb 0 n.whole
  let (significand, ignored) := absorb high n.fraction
  let shift : Int := (dropped.length : Int) - ((n.fraction.length - ignored.length : Nat) : Int)
  (scaled significand (shift + n.exponent.getD 0)).map fun x =>
    if n.negative then x.neg else x

/-- A number that can be given a value. -/
def isValue (n : Number) : Bool :=
  n.float?.isSome

end Number

end Json

end Scriptorium
