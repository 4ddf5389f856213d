/-
Decimal numbers: digits times a power of ten, and division to the nearest integer.
-/

namespace Scriptorium

/-- The non-negative number `digits * 10 ^ exponent`. -/
structure Decimal where
  digits : Nat
  exponent : Int
deriving DecidableEq, Repr

/-- Where an exact half goes. -/
inductive Tie where
  | toEven
  | up
deriving DecidableEq, Repr

namespace Decimal

/-- Two decimals that denote the same number. -/
def SameNumber (d e : Decimal) : Prop :=
  d.digits * Nat.pow 10 (d.exponent - e.exponent).toNat
    = e.digits * Nat.pow 10 (e.exponent - d.exponent).toNat

/-- Moves trailing zeros of the digits into the exponent; `fuel` bounds their number. -/
def stripZeros : Nat → Decimal → Decimal
  | 0, d => d
  | fuel + 1, d =>
    if d.digits ≠ 0 ∧ d.digits % 10 = 0 then stripZeros fuel ⟨d.digits / 10, d.exponent + 1⟩
    else d

/-- The same number without trailing zeros in its digits. -/
def normalized (d : Decimal) : Decimal :=
  stripZeros d.digits.log2 d

/-- The exponent of the leading digit. -/
def leading (d : Decimal) : Int :=
  d.exponent + ((Nat.toDigits 10 d.digits).length : Int) - 1

end Decimal

/-- The integer nearest to `num / den`; an exact half goes to the even neighbour. -/
def roundDiv (num den : Nat) : Nat :=
  let q := num / den
  let r := num % den
  if 2 * r < den then q
  else if den < 2 * r then q + 1
  else if q % 2 = 0 then q
  else q + 1

end Scriptorium
