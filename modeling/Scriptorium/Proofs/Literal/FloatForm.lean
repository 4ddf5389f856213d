/-
The source form of a finite floating-point number is read as that number (`parse_text_float`).

It is the sign and the text of the shortest decimal. The text has the form of a numeral with a point
or an exponent, so that it is read in full and as no integer, and it denotes the decimal, so that it
is rounded to the number again.
-/

import Scriptorium.Literal.Printer
import Scriptorium.Proofs.Decimal.Form
import Scriptorium.Proofs.Decimal.Shortest
import Scriptorium.Proofs.Literal.NumeralForm
import Scriptorium.Proofs.Literal.Spelling

namespace Scriptorium.Literal

open Decimal (Form IsDigits)

variable {whole fraction exponent rest s : List Char}

/-! ### Reading -/

theorem isRun_of_isDigits (h : IsDigits s) : IsRun 10 s where
  mem c hc := .inl (isDigitOf_ten c ▸ h.2 c hc)
  exists_digit := by
    obtain ⟨c, u, rfl, hc⟩ := h.head
    exact ⟨c, List.mem_cons_self, ne_underscore_of_isDigitOf (isDigitOf_ten c ▸ hc)⟩

/-- The text of a decimal has the form of a numeral. -/
theorem numeralForm_of_form (h : Form whole fraction exponent) :
    NumeralForm whole fraction exponent where
  isRun := isRun_of_isDigits h.isDigits
  isFraction := by
    rcases h.isPoint with rfl | ⟨digits, rfl, hdigits⟩
    · exact .inl rfl
    · exact .inr ⟨digits, rfl, (isRun_of_isDigits hdigits).isDigitPart⟩
  isPowerRun := by
    rcases h.isPower with rfl | ⟨sign, digits, rfl, hsign, hdigits⟩
    · exact .inl rfl
    · exact .inr ⟨'e', sign, digits, rfl, .inl rfl, hsign, isRun_of_isDigits hdigits⟩
  fractional := h.fractional

/-- There is no underscore in the text of a decimal. -/
theorem filter_form (h : Form whole fraction exponent) :
    (whole ++ fraction ++ exponent).filter (· != '_') = whole ++ fraction ++ exponent := by
  have hdigits {s : List Char} (hs : IsDigits s) : ∀ c ∈ s, (c != '_') = true := by
    intro c hc
    rw [bne_iff_ne]
    rintro rfl
    exact absurd (hs.2 _ hc) (by decide)
  have hfraction : ∀ c ∈ fraction, (c != '_') = true := by
    rcases h.isPoint with rfl | ⟨digits, rfl, hs⟩
    · simp
    · exact List.forall_mem_cons.mpr ⟨by decide, hdigits hs⟩
  have hexponent : ∀ c ∈ exponent, (c != '_') = true := by
    rcases h.isPower with rfl | ⟨sign, digits, rfl, hsign, hs⟩
    · simp
    · refine List.forall_mem_cons.mpr ⟨by decide, List.forall_mem_append.mpr ⟨?_, hdigits hs⟩⟩
      rcases hsign with rfl | rfl | rfl <;> simp
  rw [List.filter_eq_self, List.forall_mem_append, List.forall_mem_append]
  exact ⟨⟨hdigits h.isDigits, hfraction⟩, hexponent⟩

/-- The text of a decimal is read as the floating-point number next to it. -/
theorem readNumeral_form (h : Form whole fraction exponent) {d : Decimal}
    (hd : Decimal.ofChars? (whole ++ fraction ++ exponent) = some d) (hrest : Severs rest) :
    readNumeral (whole ++ fraction ++ exponent ++ rest) =
      .ok (.float (d.toBinary64 false), rest) := by
  refine (numeralForm_of_form h).readNumeral_eq ?_ hrest
  rw [filter_form h, hd]

/-- A number with its sign is a value without parts. -/
theorem reads_signed (negative : Bool) {v : Literal} {c : Char} (hc : c.isDigit = true)
    (h : ∀ rest, Severs rest → readNumeral (c :: s ++ rest) = .ok (v, rest)) :
    Reads (.value (if negative then negated v else v)) (signed negative (c :: s)) := by
  have hsolid := isSolid_of_isWordChar (Text.isWordChar_of_isDigit hc)
  cases negative with
  | true =>
    refine .atom (c := '-') (by decide) fun rest hrest _ => ?_
    rw [List.cons_append, readAtom_sign (.inr rfl), readSigned, List.cons_append,
      skipTrivia_of_solid hsolid, ← List.cons_append, h rest hrest]
    rfl
  | false =>
    refine .atom (beginsAtom_of_isDigit hc) fun rest hrest _ => ?_
    rw [List.cons_append, readAtom_digit hc, ← List.cons_append, h rest hrest]
    rfl

/-- The source form of a finite number is the sign and a text that denotes its shortest decimal. -/
theorem exists_renderFloat_eq {x : Binary64} (h : x.isFinite = true) :
    ∃ whole fraction exponent d, Form whole fraction exponent ∧
      renderFloat x = signed x.negative (whole ++ fraction ++ exponent) ∧
      Decimal.ofChars? (whole ++ fraction ++ exponent) = some d ∧
      d.SameNumber (x.shortest .up) := by
  obtain ⟨whole, fraction, exponent, e, hform, htext, hending, hsame⟩ :=
    Decimal.exists_form_text floatLayout (x.shortest .up)
  refine ⟨whole, fraction, exponent, _, hform, ?_, hform.ofChars?_eq hending, hsame⟩
  have hexponent : (x.exponent == 2047) = false := by simpa [Binary64.isFinite] using h
  simp [renderFloat, Binary64.isNaN, Binary64.isInfinite, hexponent, htext]

/-- The source form of a finite number is read as the number. -/
theorem reads_renderFloat {x : Binary64} (h : x.isFinite = true) :
    Reads (.value (.float x)) (renderFloat x) := by
  obtain ⟨whole, fraction, exponent, d, hform, hrender, hd, hsame⟩ := exists_renderFloat_eq h
  have hvalue := Binary64.toBinary64_of_sameNumber h hsame
  have hread (rest : List Char) (hrest : Severs rest) := readNumeral_form hform hd hrest
  obtain ⟨c, u, rfl, hc⟩ := hform.isDigits.head
  have hreads := reads_signed x.negative hc hread
  rw [hrender]
  cases hnegative : x.negative with
  | true =>
    rw [hnegative, Decimal.toBinary64_true] at hvalue
    rw [hnegative] at hreads
    exact hvalue ▸ hreads
  | false =>
    rw [hnegative] at hvalue hreads
    exact hvalue ▸ hreads

/-- What is no finite number is written as a call, also behind a sign. -/
theorem head?_renderFloat {x : Binary64} (h : x.isFinite = false) :
    (renderFloat x).head? = some 'f' ∨ (renderFloat x).head? = some '-' := by
  have hexponent : (x.exponent == 2047) = true := by simpa [Binary64.isFinite] using h
  cases hfraction : x.fraction == 0 with
  | false => simp [renderFloat, Binary64.isNaN, bne, hexponent, hfraction]
  | true =>
    cases hnegative : x.negative <;>
      simp [renderFloat, signed, Binary64.isNaN, Binary64.isInfinite, bne, hexponent, hfraction,
        hnegative]

/-- A source form that begins with a digit is that of a finite number. -/
theorem isFinite_of_head_renderFloat {x : Binary64}
    (h : (renderFloat x).head?.any Char.isDigit = true) : x.isFinite = true := by
  rw [← Bool.not_eq_false]
  intro hfinite
  rcases head?_renderFloat hfinite with hhead | hhead <;>
  · rw [hhead] at h
    exact absurd h (by decide)

/-- **The source form of a floating-point number.** The source form of every finite number is read
in full, as that very number, with its sign also if it is zero. Behind the sign it denotes the
shortest decimal of the number: of all decimals that are rounded to the number those with the fewest
digits, of these the nearest, and of two that are as near the greater one. -/
theorem parse_text_float {x : Binary64} (h : x.isFinite = true) :
    parse (Literal.float x).text = .ok (.float x) ∧
      Binary64.IsShortest .up x (x.shortest .up) ∧
      ∃ body d, (Literal.float x).text = String.ofList (signed x.negative body) ∧
        Decimal.ofChars? body = some d ∧ ∀ e, Binary64.IsShortest .up x e → d.SameNumber e := by
  have hshortest := Binary64.isShortest_shortest h .up
  refine ⟨?_, hshortest, ?_⟩
  · refine parse_of_reads ?_
    rw [text, String.toList_ofList, render]
    exact (reads_renderFloat h).bare
  · obtain ⟨whole, fraction, exponent, d, -, hrender, hd, hsame⟩ := exists_renderFloat_eq h
    refine ⟨_, d, ?_, hd, fun e he => ?_⟩
    · rw [text, render, hrender]
    · rw [Decimal.sameNumber_iff] at hsame ⊢
      exact hsame.trans (Decimal.sameNumber_iff.mp (hshortest.sameNumber he))

/-- The least number below zero keeps its sign and its one digit. -/
theorem parse_text_float_least : (Binary64.ofBits 0x8000000000000001).isFinite = true ∧
    (Literal.float (Binary64.ofBits 0x8000000000000001)).text = "-5e-324" ∧
    parse "-5e-324" = .ok (.float (Binary64.ofBits 0x8000000000000001)) := by
  have hfinite : (Binary64.ofBits 0x8000000000000001).isFinite = true := by decide
  have htext : (Literal.float (Binary64.ofBits 0x8000000000000001)).text = "-5e-324" := by
    decide +kernel
  exact ⟨hfinite, htext, htext ▸ (parse_text_float hfinite).1⟩

end Scriptorium.Literal
