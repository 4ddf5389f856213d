/-
The form of the text of a decimal, in every layout: digits, then a point with digits behind it, an
exponent, or both. The text is read as a decimal that denotes the same number (`ofChars?_text`).
-/

import Scriptorium.Decimal.Layout
import Scriptorium.Decimal.Reading
import Scriptorium.Proofs.Text.Cut

namespace Scriptorium.Decimal

/-- Nothing but digits, and at least one. -/
def IsDigits (s : List Char) : Prop :=
  s ≠ [] ∧ ∀ c ∈ s, c.isDigit = true

/-- A point with the digits behind it, or nothing. -/
def IsPoint (s : List Char) : Prop :=
  s = [] ∨ ∃ digits, s = '.' :: digits ∧ IsDigits digits

/-- An exponent with its mark, or nothing. -/
def IsPower (s : List Char) : Prop :=
  s = [] ∨ ∃ sign digits, s = 'e' :: (sign ++ digits) ∧
    (sign = [] ∨ sign = ['+'] ∨ sign = ['-']) ∧ IsDigits digits

/-- The parts of the text of a decimal. -/
structure Form (whole fraction exponent : List Char) : Prop where
  isDigits : IsDigits whole
  isPoint : IsPoint fraction
  isPower : IsPower exponent
  fractional : fraction ++ exponent ≠ []

/-- The decimal of the digits before and behind the point and a number for the exponent. -/
def ofParts (whole fraction : List Char) (e : Int) : Decimal :=
  ⟨Text.ofDigits 10 (whole ++ fraction.tail), e - fraction.tail.length⟩

/-! ### The text of a decimal -/

theorem isDigits_toDigits (n : Nat) : IsDigits (Nat.toDigits 10 n) :=
  ⟨Nat.toDigits_ne_nil, fun _ hc => Nat.isDigit_of_mem_toDigits (by decide) (by decide) hc⟩

theorem IsDigits.append {s t : List Char} (hs : IsDigits s) (ht : ∀ c ∈ t, c.isDigit = true) :
    IsDigits (s ++ t) :=
  ⟨by simp [hs.1], List.forall_mem_append.mpr ⟨hs.2, ht⟩⟩

theorem isDigit_of_mem_zeros {n : Nat} : ∀ c ∈ List.replicate n '0', c.isDigit = true := by
  intro c hc
  rw [List.eq_of_mem_replicate hc]
  rfl

theorem IsDigits.zeros_append {s : List Char} (hs : IsDigits s) (n : Nat) :
    IsDigits (List.replicate n '0' ++ s) :=
  ⟨by simp [hs.1], List.forall_mem_append.mpr ⟨isDigit_of_mem_zeros, hs.2⟩⟩

/-- Digits with a point may have zeros behind, each of them a place more behind the point. -/
theorem exists_form_pointed {digits : List Char} (hdigits : IsDigits digits) (k : Int) :
    ∃ whole fraction, Form whole fraction [] ∧ pointed digits k = whole ++ fraction ∧
      ∃ zeros : Nat, ofParts whole fraction 0 =
        ⟨Text.ofDigits 10 digits * Nat.pow 10 zeros, k - digits.length - zeros⟩ := by
  have hform {whole fraction : List Char} (hwhole : IsDigits whole)
      (hfraction : IsDigits fraction) : Form whole ('.' :: fraction) [] :=
    ⟨hwhole, .inr ⟨fraction, rfl, hfraction⟩, .inl rfl, by simp⟩
  have hzero : IsDigits ['0'] := isDigits_toDigits 0
  unfold pointed
  split
  · rename_i hk
    have hvalue : Text.ofDigits 10 ('0' :: (List.replicate (-k).toNat '0' ++ digits)) =
        Text.ofDigits 10 digits := by
      rw [← List.cons_append, ← List.replicate_succ, Text.ofDigits_zeros_append]
    refine ⟨['0'], _, hform hzero (hdigits.zeros_append _), rfl, 0, ?_⟩
    simp only [ofParts, List.singleton_append, List.tail_cons, hvalue, List.length_append,
      List.length_replicate, Nat.pow_eq, Nat.pow_zero, Nat.mul_one, Decimal.mk.injEq, true_and]
    omega
  rename_i hk
  simp only
  split
  · rename_i hn
    have htake : IsDigits (digits.take k.toNat) := by
      refine ⟨?_, fun c hc => hdigits.2 c (List.mem_of_mem_take hc)⟩
      rw [← List.length_pos_iff, List.length_take]
      omega
    have hdrop : IsDigits (digits.drop k.toNat) := by
      refine ⟨?_, fun c hc => hdigits.2 c (List.mem_of_mem_drop hc)⟩
      rw [← List.length_pos_iff, List.length_drop]
      omega
    refine ⟨_, _, hform htake hdrop, rfl, 0, ?_⟩
    simp only [ofParts, List.tail_cons, List.take_append_drop, List.length_drop, Nat.pow_eq,
      Nat.pow_zero, Nat.mul_one, Decimal.mk.injEq, true_and]
    omega
  · have hwhole : IsDigits (digits ++ List.replicate (k.toNat - digits.length) '0') :=
      hdigits.append isDigit_of_mem_zeros
    have hplaces : (0 : Int) - (1 : Nat) =
        k - digits.length - (k.toNat - digits.length + 1 : Nat) := by
      omega
    have hvalue : Text.ofDigits 10
          (digits ++ List.replicate (k.toNat - digits.length) '0' ++ ['0']) =
        Text.ofDigits 10 digits * Nat.pow 10 (k.toNat - digits.length + 1) := by
      rw [List.append_assoc, ← List.replicate_succ', Text.ofDigits_append_zeros]
    refine ⟨_, _, hform hwhole hzero, rfl, k.toNat - digits.length + 1, ?_⟩
    simp only [ofParts, List.tail_cons, hvalue, List.length_singleton, hplaces]

theorem exponentValue?_append {sign digits : List Char}
    (hsign : sign = [] ∨ sign = ['+'] ∨ sign = ['-']) (hdigits : IsDigits digits) :
    exponentValue? (sign ++ digits) = some (if sign = ['-'] then -(Text.ofDigits 10 digits : Int)
      else Text.ofDigits 10 digits) := by
  obtain ⟨hne, hall⟩ := hdigits
  cases digits with
  | nil => exact absurd rfl hne
  | cons d ds =>
    have hd := (List.forall_mem_cons.mp hall).1
    have hplain : d ≠ '-' ∧ d ≠ '+' := by
      constructor <;>
      · rintro rfl
        exact absurd hd (by decide)
    have hdigit : (d :: ds).all Char.isDigit = true := List.all_eq_true.mpr hall
    rcases hsign with rfl | rfl | rfl
    · simp [exponentValue?, hplain, hdigit]
    · simp [exponentValue?, hdigit]
    · simp [exponentValue?, hdigit]

/-- The text of an exponent is one, and has the number of the exponent. -/
theorem exponentText_spec (style : Layout) (e : Int) :
    IsPower ('e' :: exponentText style e) ∧ ending? ('e' :: exponentText style e) = some e := by
  set digits := List.replicate (style.exponentWidth - (Nat.toDigits 10 e.natAbs).length) '0' ++
    Nat.toDigits 10 e.natAbs with hdigits
  set sign := if e < 0 then ['-'] else if style.plusSign then ['+'] else [] with hsign
  have hisDigits : IsDigits digits := (isDigits_toDigits e.natAbs).zeros_append _
  have hisSign : sign = [] ∨ sign = ['+'] ∨ sign = ['-'] := by
    rw [hsign]
    split_ifs <;> simp
  have hnegative : sign = ['-'] ↔ e < 0 := by
    rw [hsign]
    split_ifs <;> simp_all
  have htext : exponentText style e = sign ++ digits := by
    rw [hdigits, ← List.append_assoc]
    rfl
  have hvalue : Text.ofDigits 10 digits = e.natAbs := by
    rw [hdigits, Text.ofDigits_zeros_append, Text.ofDigits_toDigits]
  rw [htext]
  refine ⟨.inr ⟨sign, digits, rfl, hisSign, hisDigits⟩, ?_⟩
  rw [ending?, if_pos (.inl rfl), exponentValue?_append hisSign hisDigits, hvalue]
  simp only [hnegative, Option.some_inj]
  split <;> omega

theorem exists_form_scientific (style : Layout) {digits : List Char} (hdigits : IsDigits digits)
    (e : Int) : ∃ whole fraction exponent, Form whole fraction exponent ∧
      scientific style digits e = whole ++ fraction ++ exponent ∧ ending? exponent = some e ∧
      ofParts whole fraction e = ⟨Text.ofDigits 10 digits, e + 1 - digits.length⟩ := by
  obtain ⟨hpower, hending⟩ := exponentText_spec style e
  obtain ⟨hne, hall⟩ := hdigits
  cases digits with
  | nil => exact absurd rfl hne
  | cons d ds =>
    rw [List.forall_mem_cons] at hall
    have hfirst : IsDigits [d] := ⟨by simp, by simpa using hall.1⟩
    cases ds with
    | nil =>
      refine ⟨[d], [], _, ⟨hfirst, .inl rfl, hpower, by simp⟩, rfl, hending, ?_⟩
      simp [ofParts]
    | cons d₂ ds =>
      have hmore : IsDigits (d₂ :: ds) := ⟨by simp, hall.2⟩
      refine ⟨[d], '.' :: d₂ :: ds, _, ⟨hfirst, .inr ⟨_, rfl, hmore⟩, hpower, by simp⟩, ?_,
        hending, ?_⟩
      · simp [scientific]
      · simp only [ofParts, List.singleton_append, List.tail_cons, List.length_cons,
          Decimal.mk.injEq, true_and]
        omega

/-- Zeros behind the digits do not change the number if the exponent goes down with them. -/
theorem sameNumber_zeros (n zeros : Nat) (e : Int) :
    SameNumber ⟨n * Nat.pow 10 zeros, e - zeros⟩ ⟨n, e⟩ := by
  have hless : (e - (zeros : Int) - e).toNat = 0 := by omega
  have hmore : (e - (e - (zeros : Int))).toNat = zeros := by omega
  simp only [SameNumber, hless, hmore, Nat.pow_eq, Nat.pow_zero, Nat.mul_one]

/-- In every layout the text of a decimal has this form, and its parts denote the decimal. -/
theorem exists_form_text (style : Layout) (d : Decimal) :
    ∃ whole fraction exponent e, Form whole fraction exponent ∧
      d.text style = whole ++ fraction ++ exponent ∧ ending? exponent = some e ∧
      (ofParts whole fraction e).SameNumber d := by
  have hdigits := isDigits_toDigits d.digits
  have hexponent : d.leading + 1 - (Nat.toDigits 10 d.digits).length = d.exponent := by
    unfold leading
    omega
  unfold text
  simp only
  split
  · rename_i hzero
    refine ⟨['0'], ['.', '0'], [], 0, ?_, rfl, rfl, ?_⟩
    · exact ⟨isDigits_toDigits 0, .inr ⟨_, rfl, isDigits_toDigits 0⟩, .inl rfl, by simp⟩
    · show (0 : Nat) * _ = d.digits * _
      rw [hzero, Nat.zero_mul, Nat.zero_mul]
  split
  · obtain ⟨whole, fraction, hform, hpointed, zeros, hvalue⟩ :=
      exists_form_pointed hdigits (d.leading + 1)
    refine ⟨whole, fraction, [], 0, hform, by rw [List.append_nil, hpointed], rfl, ?_⟩
    rw [hvalue, hexponent, Text.ofDigits_toDigits]
    exact sameNumber_zeros _ _ _
  · obtain ⟨whole, fraction, exponent, hform, hscientific, hending, hvalue⟩ :=
      exists_form_scientific style hdigits d.leading
    refine ⟨whole, fraction, exponent, d.leading, hform, hscientific, hending, ?_⟩
    rw [hvalue, hexponent, Text.ofDigits_toDigits]
    rfl

theorem IsDigits.head {s : List Char} (h : IsDigits s) : ∃ c u, s = c :: u ∧ c.isDigit = true := by
  obtain ⟨hne, hall⟩ := h
  cases s with
  | nil => exact absurd rfl hne
  | cons c s => exact ⟨c, s, rfl, hall c List.mem_cons_self⟩

theorem head_text (style : Layout) (d : Decimal) :
    ∃ c u, d.text style = c :: u ∧ c.isDigit = true := by
  obtain ⟨whole, fraction, exponent, e, hform, htext, -⟩ := exists_form_text style d
  obtain ⟨c, u, rfl, hc⟩ := hform.isDigits.head
  exact ⟨c, _, htext, hc⟩

/-! ### Reading -/

theorem digitRun_append {s t : List Char} (hs : ∀ c ∈ s, c.isDigit = true)
    (ht : ∀ c ∈ t.head?, c.isDigit = false) : digitRun (s ++ t) = (s, t) := by
  rw [digitRun, Text.takeWhile_append hs ht, Text.dropWhile_append hs ht]

theorem IsPower.head {s : List Char} (h : IsPower s) : ∀ c ∈ s.head?, c = 'e' := by
  rcases h with rfl | ⟨sign, digits, rfl, _⟩ <;> simp

/-- Digits, a point that digits may stand behind, and what begins like an exponent are read as the
decimal of these parts, if the exponent has a number. -/
theorem ofChars?_append {whole fraction exponent : List Char} (hwhole : IsDigits whole)
    (hfraction : fraction = [] ∨
      ∃ digits, fraction = '.' :: digits ∧ ∀ c ∈ digits, c.isDigit = true)
    (hexponent : ∀ c ∈ exponent.head?, c = 'e' ∨ c = 'E') :
    ofChars? (whole ++ fraction ++ exponent) =
      (ending? exponent).map (ofParts whole fraction) := by
  have hmark : ∀ c ∈ exponent.head?, c.isDigit = false := by
    intro c hc
    rcases hexponent c hc with rfl | rfl <;> rfl
  have hempty : whole.isEmpty = false := by simpa using hwhole.1
  rw [List.append_assoc]
  rcases hfraction with rfl | ⟨digits, rfl, hdigits⟩
  · have hnone : fractionRun exponent = ([], exponent) := by
      unfold fractionRun
      split
      · exact absurd (hexponent '.' rfl) (by decide)
      · rfl
    simp only [List.nil_append, ofChars?, digitRun_append hwhole.2 hmark, hnone, hempty,
      Bool.false_and, Bool.false_eq_true, if_false]
    rfl
  · have hpoint : ∀ c ∈ ('.' :: (digits ++ exponent)).head?, c.isDigit = false := by
      rintro c ⟨⟩
      rfl
    have hrun : fractionRun ('.' :: (digits ++ exponent)) = (digits, exponent) :=
      digitRun_append hdigits hmark
    simp only [List.cons_append, ofChars?, digitRun_append hwhole.2 hpoint, hrun, hempty,
      Bool.false_and, Bool.false_eq_true, if_false]
    rfl

/-- A text of this form is read as the decimal of its parts. -/
theorem Form.ofChars?_eq {whole fraction exponent : List Char} (h : Form whole fraction exponent)
    {e : Int} (he : ending? exponent = some e) :
    ofChars? (whole ++ fraction ++ exponent) = some (ofParts whole fraction e) := by
  have hfraction : fraction = [] ∨
      ∃ digits, fraction = '.' :: digits ∧ ∀ c ∈ digits, c.isDigit = true := by
    rcases h.isPoint with hnone | ⟨digits, hpoint, hdigits⟩
    · exact .inl hnone
    · exact .inr ⟨digits, hpoint, hdigits.2⟩
  rw [ofChars?_append h.isDigits hfraction fun c hc => .inl (h.isPower.head c hc), he,
    Option.map_some]

/-- In every layout the text of a decimal is read as a decimal that denotes the same number. -/
theorem ofChars?_text (style : Layout) (d : Decimal) :
    ∃ e, ofChars? (d.text style) = some e ∧ e.SameNumber d := by
  obtain ⟨whole, fraction, exponent, e, hform, htext, hending, hsame⟩ := exists_form_text style d
  exact ⟨_, htext ▸ hform.ofChars?_eq hending, hsame⟩

end Scriptorium.Decimal
