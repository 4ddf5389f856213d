/-
How a decimal is laid out: positionally or with an exponent.

A `Layout` is the record of a format's choices; `Layout.text` writes a decimal by them. The
digits themselves are chosen elsewhere.
-/

import Scriptorium.Decimal.Basic

namespace Scriptorium

namespace Decimal

/-- The choices of a number format. -/
structure Layout where
  /-- The least exponent of the leading digit that is written positionally. -/
  plainFrom : Int
  /-- The least greater exponent that is not. -/
  plainBelow : Int
  /-- A positive exponent has a plus sign. -/
  plusSign : Bool
  /-- The least number of digits of the exponent. -/
  exponentWidth : Nat

/-- Digits after a point that is set behind the first `k` of them, with zeros where the point
falls outside the digits. -/
def pointed (digits : List Char) (k : Int) : List Char :=
  if k ≤ 0 then '0' :: '.' :: (List.replicate (-k).toNat '0' ++ digits)
  else
    let n := k.toNat
    if n < digits.length then digits.take n ++ '.' :: digits.drop n
    else digits ++ List.replicate (n - digits.length) '0' ++ ['.', '0']

/-- An exponent with its sign and least width. -/
def exponentText (style : Layout) (e : Int) : List Char :=
  let digits := Nat.toDigits 10 e.natAbs
  let sign := if e < 0 then ['-'] else if style.plusSign then ['+'] else []
  sign ++ List.replicate (style.exponentWidth - digits.length) '0' ++ digits

/-- One digit, the others after a point, and the exponent. -/
def scientific (style : Layout) (digits : List Char) (e : Int) : List Char :=
  match digits with
  | [] => []
  | [d] => d :: 'e' :: exponentText style e
  | d :: ds => d :: '.' :: (ds ++ 'e' :: exponentText style e)

/-- The text of a decimal under the choices of a format. Zero is written positionally. -/
def text (style : Layout) (d : Decimal) : List Char :=
  let digits := Nat.toDigits 10 d.digits
  let e := d.leading
  if d.digits = 0 then ['0', '.', '0']
  else if style.plainFrom ≤ e ∧ e < style.plainBelow then pointed digits (e + 1)
  else scientific style digits e

end Decimal

end Scriptorium
