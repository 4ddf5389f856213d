/-
Which integers are read: those of sixty-four bits, whatever the base and however many digits.

The magnitude of an integer is read before its sign is applied, so that the range is the same on
both sides of zero. The least integer is therefore taken for one that is out of range
(`parse_numeral_iff`), and it is the only one.
-/

import Scriptorium.Proofs.Literal.SourceForm

namespace Scriptorium.Literal

variable {negative : Bool} {sign s : List Char} {n : Nat}

/-- What a numeral should be read as: its number, unless that is out of range. -/
def ranged (s : List Char) (z : Int) : Except Error Literal :=
  if Int64.minValue.toInt ≤ z ∧ z ≤ Int64.maxValue.toInt then .ok (.int (Int64.ofInt z))
  else .error (.integerOverflow (String.ofList s))

theorem run_numeral (hsign : Sign sign negative) (hs : Numeral s n) :
    run .expect [] (sign ++ s) =
      ((intOf s n).map fun v => if negative then negated v else v).map (·, []) := by
  have hread := readAtom_numeral hsign hs severs_nil
  rw [List.append_nil] at hread
  obtain ⟨c, u, heq, hc⟩ := hsign.head_numeral hs
  have hsolid := skipTrivia_of_solid (beginsAtom_iff.mp hc).1 u
  rw [heq] at hread ⊢
  cases hint : intOf s n with
  | error fault =>
    rw [hint] at hread
    exact run_expect_fault hsolid rfl (opened?_of_beginsAtom hc) hread
  | ok v =>
    rw [hint] at hread
    exact (run_expect_atom hsolid rfl (opened?_of_beginsAtom hc) hread).trans run_got_nil

/-- Whether a numeral is read depends on its magnitude alone. -/
theorem parse_numeral (hsign : Sign sign negative) (hs : Numeral s n) :
    parse (String.ofList (sign ++ s)) =
      if n < intBound then .ok (.int (Int64.ofInt (signedValue negative n)))
      else .error (.integerOverflow (String.ofList s)) := by
  have hrun := run_numeral hsign hs
  by_cases hn : n < intBound
  · rw [signed_intOf negative hn] at hrun
    rw [if_pos hn]
    rw [parse_eq_ok_iff, String.toList_ofList, hrun]
    exact ⟨[], rfl, rfl⟩
  · rw [intOf, if_neg hn] at hrun
    rw [if_neg hn, parse, String.toList_ofList]
    simp only [hrun]
    rfl

/-! ### The range -/

theorem toInt_minValue_eq : Int64.minValue.toInt = -(intBound : Int) := rfl

theorem toInt_maxValue_eq : Int64.maxValue.toInt = (intBound : Int) - 1 := rfl

/-- The range of integers is that of their magnitudes, but for the least integer. -/
theorem lt_intBound_iff (h : signedValue negative n ≠ Int64.minValue.toInt) :
    n < intBound ↔ Int64.minValue.toInt ≤ signedValue negative n ∧
      signedValue negative n ≤ Int64.maxValue.toInt := by
  rw [toInt_minValue_eq] at h
  rw [toInt_minValue_eq, toInt_maxValue_eq]
  cases negative with
  | false =>
    simp only [signedValue, Bool.false_eq_true, if_false]
    omega
  | true =>
    simp only [signedValue, if_true] at h ⊢
    omega

/-- The least integer is refused, as its magnitude is out of range. -/
theorem parse_numeral_of_least (hsign : Sign sign negative) (hs : Numeral s n)
    (h : signedValue negative n = Int64.minValue.toInt) :
    parse (String.ofList (sign ++ s)) = .error (.integerOverflow (String.ofList s)) := by
  have hpos : 0 < intBound := Nat.zero_lt_succ _
  have hn : ¬n < intBound := by
    rw [toInt_minValue_eq] at h
    cases negative with
    | false =>
      simp only [signedValue, Bool.false_eq_true, if_false] at h
      omega
    | true =>
      simp only [signedValue, if_true] at h
      omega
  rw [parse_numeral hsign hs, if_neg hn]

theorem ranged_of_least (s : List Char) :
    ranged s Int64.minValue.toInt = .ok (.int Int64.minValue) := by
  rw [ranged, if_pos ⟨Int.le_refl _, by decide⟩, Int64.ofInt_toInt]

/-- **The range of integers.** A numeral, with a sign or without one, is read as its number if that
is in the range of sixty-four bits and refused as out of range if it is not, except for the least
integer, which is refused too. -/
theorem parse_numeral_iff (hsign : Sign sign negative) (hs : Numeral s n) :
    (parse (String.ofList (sign ++ s)) = ranged s (signedValue negative n) ↔
        signedValue negative n ≠ Int64.minValue.toInt) ∧
      (signedValue negative n = Int64.minValue.toInt →
        parse (String.ofList (sign ++ s)) = .error (.integerOverflow (String.ofList s))) := by
  refine ⟨⟨?_, ?_⟩, parse_numeral_of_least hsign hs⟩
  · intro hparse h
    rw [parse_numeral_of_least hsign hs h, h, ranged_of_least] at hparse
    cases hparse
  · intro h
    rw [parse_numeral hsign hs, ranged]
    simp only [lt_intBound_iff h]

theorem parse_numeral_iff_of_hexadecimal :
    (Sign ['-', ' '] true ∧ Numeral ['0', 'x', '1', '_', 'F'] 31) ∧
      parse "- 0x1_F" = ranged ['0', 'x', '1', '_', 'F'] (-31) := by
  have hsign : Sign ['-', ' '] true := .minus .space
  have hdigits : Digits 16 ['1', '_', 'F'] 31 :=
    .next (k := 1) (.digit (c := '1') (d := 1) (by decide) (by decide))
      (c := 'F') (d := 15) (by decide) (by decide)
  have hnumeral : Numeral ['0', 'x', '1', '_', 'F'] 31 :=
    .based (k := 0) (by decide) hdigits
  exact ⟨⟨hsign, hnumeral⟩, (parse_numeral_iff hsign hnumeral).1.mpr (by decide)⟩

/-- The least integer is in the range, and it is refused. -/
theorem parse_least_integer :
    (Sign ['-'] true ∧ Numeral (Nat.toDigits 10 0x8000000000000000) 0x8000000000000000) ∧
      signedValue true 0x8000000000000000 = Int64.minValue.toInt ∧
      parse "-9223372036854775808" ≠
        ranged (Nat.toDigits 10 0x8000000000000000) (signedValue true 0x8000000000000000) := by
  have hsign : Sign ['-'] true := .minus .nil
  have hnumeral : Numeral (Nat.toDigits 10 0x8000000000000000) 0x8000000000000000 :=
    .decimal (digits_toDigits _)
  have hvalue : signedValue true 0x8000000000000000 = Int64.minValue.toInt := by decide
  have hsource : "-9223372036854775808" =
      String.ofList (['-'] ++ Nat.toDigits 10 0x8000000000000000) := by decide
  refine ⟨⟨hsign, hnumeral⟩, hvalue, ?_⟩
  rw [hsource, parse_numeral_of_least hsign hnumeral hvalue, hvalue, ranged_of_least]
  intro heq
  cases heq

end Scriptorium.Literal
