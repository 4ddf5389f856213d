/-
Numerals: integers of four bases and floating-point numbers, with underscores between digits.

A numeral extends as far as its characters go. A letter, a digit of another script or an
underscore directly behind one spoils it.
-/

import Scriptorium.Decimal.Reading
import Scriptorium.Decimal.Rounding
import Scriptorium.Literal.Error
import Scriptorium.Text.Numeric

namespace Scriptorium.Literal

/-! ### Extent -/

/-- A digit or an underscore. -/
def isDigitPart (c : Char) : Bool :=
  c.isDigit || c == '_'

/-- The point at the beginning of a text with the digits behind it. -/
def fractionOf : List Char → List Char
  | '.' :: s => '.' :: s.takeWhile isDigitPart
  | _ => []

/-- The sign at the beginning of a text. -/
def signOf : List Char → List Char
  | [] => []
  | c :: _ => if c = '+' ∨ c = '-' then [c] else []

/-- The exponent at the beginning of a text. -/
def exponentOf : List Char → List Char
  | [] => []
  | c :: s =>
    if c = 'e' ∨ c = 'E' then
      c :: (signOf s ++ (s.drop (signOf s).length).takeWhile isDigitPart)
    else []

/-! ### Values -/

/-- The greatest integer plus one. -/
def intBound : Nat := 0x8000000000000000

/-- A non-negative integer, unless it is out of range. -/
def intOf (text : List Char) (n : Nat) : Except Fault Literal :=
  if n < intBound then .ok (.int (Int64.ofNat n)) else .error (.integerOverflow text)

/-- The integer or floating-point number written without a base; `fractional` says that it has a
point or an exponent. -/
def decimalOf (fractional : Bool) (text : List Char) : Except Fault Literal :=
  let digits := text.filter (· != '_')
  if fractional then
    match Decimal.ofChars? digits with
    | some d => .ok (.float (d.toBinary64 false))
    | none => .error (.invalidNumber text)
  else if digits.isEmpty then .error (.invalidNumber text)
  else intOf text (Text.ofDigits 10 digits)

/-- The integer written in a base; `digits` follow the mark of the base. -/
def basedOf (base : Nat) (text digits : List Char) : Except Fault Literal :=
  let digits := digits.filter (· != '_')
  if digits.isEmpty || !digits.all (Text.isDigitOf base) then .error (.invalidNumber text)
  else intOf text (Text.ofDigits base digits)

/-! ### Reading -/

/-- A numeral of decimal digits, and what follows. -/
def readDecimal (s : List Char) : Except Fault (Literal × List Char) :=
  let whole := s.takeWhile isDigitPart
  let fraction := fractionOf (s.drop whole.length)
  let exponent := exponentOf (s.drop (whole ++ fraction).length)
  let text := whole ++ fraction ++ exponent
  let rest := s.drop text.length
  let word := rest.takeWhile Text.isWordChar
  if word ≠ [] then .error (.invalidNumber (text ++ word))
  else (decimalOf (fraction ++ exponent ≠ []) text).map (·, rest)

/-- A numeral with the mark of a base, and what follows; `digits` stand behind the mark. -/
def readBased (base : Nat) (mark digits : List Char) : Except Fault (Literal × List Char) :=
  let isPart := fun (c : Char) => c.isAlphanum || c == '_'
  let text := digits.takeWhile isPart
  (basedOf base (mark ++ text) text).map (·, digits.dropWhile isPart)

/-- The base whose mark stands behind a leading zero. -/
def baseOf? (c : Char) : Option Nat :=
  match c with
  | 'x' | 'X' => some 16
  | 'o' | 'O' => some 8
  | 'b' | 'B' => some 2
  | _ => none

/-- A numeral without a sign, and what follows. -/
def readNumeral (s : List Char) : Except Fault (Literal × List Char) :=
  match s with
  | '0' :: c :: digits =>
    match baseOf? c with
    | some base => readBased base ['0', c] digits
    | none => readDecimal s
  | _ => readDecimal s

theorem decimalOf_nil (fractional : Bool) :
    decimalOf fractional [] = .error (.invalidNumber []) := by
  cases fractional <;> rfl

theorem length_readDecimal_lt {s rest : List Char} {v : Literal}
    (h : readDecimal s = .ok (v, rest)) : rest.length < s.length := by
  cases s with
  | nil => cases h
  | cons c s =>
    simp only [readDecimal] at h
    split at h
    · cases h
    · generalize fractionOf _ = fraction at h
      generalize exponentOf _ = exponent at h
      generalize (c :: s).takeWhile isDigitPart ++ fraction ++ exponent = text at h
      generalize hvalue : decimalOf _ text = value at h
      cases value with
      | error fault => cases h
      | ok w =>
        simp only [Except.map, Except.ok.injEq, Prod.mk.injEq] at h
        obtain ⟨_, rfl⟩ := h
        have : text ≠ [] := by
          rintro rfl
          simp [decimalOf_nil] at hvalue
        have := List.length_pos_iff.mpr this
        simp only [List.length_drop, List.length_cons]
        omega

theorem length_readBased_le {base : Nat} {mark digits rest : List Char} {v : Literal}
    (h : readBased base mark digits = .ok (v, rest)) : rest.length ≤ digits.length := by
  simp only [readBased] at h
  generalize basedOf base _ _ = value at h
  cases value with
  | error fault => simp [Except.map] at h
  | ok w =>
    simp only [Except.map, Except.ok.injEq, Prod.mk.injEq] at h
    obtain ⟨_, rfl⟩ := h
    exact (List.dropWhile_sublist _).length_le

theorem length_readNumeral_lt {s rest : List Char} {v : Literal}
    (h : readNumeral s = .ok (v, rest)) : rest.length < s.length := by
  unfold readNumeral at h
  split at h
  · split at h
    · have := length_readBased_le h
      simp only [List.length_cons]
      omega
    · exact length_readDecimal_lt h
  · exact length_readDecimal_lt h

/-- The number with the other sign. -/
def negated : Literal → Literal
  | .int n => .int (-n)
  | .float x => .float x.neg
  | v => v

end Scriptorium.Literal
