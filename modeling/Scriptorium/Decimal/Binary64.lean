/-
Binary floating-point numbers of 64 bits, by sign, biased exponent and fraction.

A finite number is a significand times a power of two; all arithmetic on it is exact, on
natural numbers. The numbers of one sign are numbered in ascending order by their `index`, and
infinity is the index after the greatest finite number.
-/

namespace Scriptorium

/-- A 64-bit floating-point number: finite, infinite or not a number. -/
structure Binary64 where
  negative : Bool
  /-- The exponent as stored, eleven bits; all ones marks the infinities and what is no number. -/
  exponent : Nat
  /-- The fraction as stored, fifty-two bits. -/
  fraction : Nat
  exponent_lt : exponent < 0x800 := by decide
  fraction_lt : fraction < 0x10000000000000 := by decide
deriving DecidableEq

namespace Binary64

/-! ### Kinds -/

/-- Neither infinite nor “not a number”. -/
def isFinite (x : Binary64) : Bool :=
  x.exponent != 2047

/-- The value of the word is no number. -/
def isNaN (x : Binary64) : Bool :=
  x.exponent == 2047 && x.fraction != 0

/-- One of the two infinities. -/
def isInfinite (x : Binary64) : Bool :=
  x.exponent == 2047 && x.fraction == 0

/-- One of the two zeros. -/
def isZero (x : Binary64) : Bool :=
  x.exponent == 0 && x.fraction == 0

/-- The number with the other sign. -/
def neg (x : Binary64) : Binary64 :=
  { x with negative := !x.negative }

/-- Equality of values: the zeros are equal, and what is no number equals nothing. -/
def sameValue (x y : Binary64) : Bool :=
  !x.isNaN && !y.isNaN && (x == y || (x.isZero && y.isZero))

/-! ### Values -/

/-- The significand of a finite number. -/
def significand (x : Binary64) : Nat :=
  if x.exponent = 0 then x.fraction else 0x10000000000000 + x.fraction

/-- The power of two that scales the significand of a finite number. -/
def scale (x : Binary64) : Int :=
  if x.exponent = 0 then -1074 else (x.exponent : Int) - 1075

/-- The gap to the next smaller magnitude is half the gap to the next greater one. -/
def narrowBelow (x : Binary64) : Bool :=
  x.fraction == 0 && x.exponent > 1

/-- The number with a given place in the ascending order of magnitudes; all places beyond the
finite ones are infinity. -/
def ofIndex (negative : Bool) (index : Nat) : Binary64 :=
  if h : index < 2047 * 0x10000000000000 then
    { negative
      exponent := index / 0x10000000000000
      fraction := index % 0x10000000000000
      exponent_lt := by omega
      fraction_lt := by omega }
  else { negative, exponent := 2047, fraction := 0 }

/-! ### Words -/

/-- The 64-bit word of a number. -/
def toBits (x : Binary64) : Nat :=
  (if x.negative then 0x8000000000000000 else 0) + x.exponent * 0x10000000000000 + x.fraction

/-- The number of a 64-bit word. -/
def ofBits (word : Nat) : Binary64 where
  negative := word / 0x8000000000000000 % 2 == 1
  exponent := word / 0x10000000000000 % 0x800
  fraction := word % 0x10000000000000
  exponent_lt := Nat.mod_lt _ (by decide)
  fraction_lt := Nat.mod_lt _ (by decide)

end Binary64

end Scriptorium
