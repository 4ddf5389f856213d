/-
How far ahead the scanner looks.

The longest token that fits is taken. Which one that is, strings left aside, depends on the text up
to the first character that ends any token (`plainScan_append`), and not on what stands behind the
token and has no part in it (`plainScan_of_append`).
-/

import Scriptorium.Proofs.Text.CharacterClass
import Scriptorium.Script.Token
import Mathlib.Data.List.TakeWhile

namespace Scriptorium.Script

variable {c : Char} {s r : List Char}

/-! ### Ends of tokens -/

/-- A character that continues no token but a string. -/
structure EndsToken (c : Char) : Prop where
  not_isNamePart : Text.isNamePart c = false
  not_isMark : isMark c = false
  not_sign : c ∉ ['+', '-', '.']
  not_operator : ∀ op ∈ operators, c ∉ op.tail

/-- A text that is empty or begins with the end of a token. -/
def Ends (s : List Char) : Prop :=
  ∀ c ∈ s.head?, EndsToken c

theorem apart_blank_namePart : Text.apart Text.blankRanges Text.namePartRanges = true := by
  decide +kernel

/-- A blank ends any token. -/
theorem EndsToken.of_isBlank (h : Text.isBlank c = true) : EndsToken c where
  not_isNamePart := by
    have halnum := Text.isAlphanum_eq_false_of_isBlank h
    have hne : (c == '_') = false := by
      rw [beq_eq_false_iff_ne]
      rintro rfl
      exact absurd h (by decide)
    have htable := Text.inRanges_eq_false_of_apart apart_blank_namePart h
    rw [Text.isNamePart, halnum, hne, htable]
    simp
  not_isMark := by
    rw [Bool.eq_false_iff]
    intro hmark
    simp only [isMark, Bool.or_eq_true, beq_iff_eq] at hmark
    rcases hmark with (rfl | rfl) | rfl <;> exact absurd h (by decide)
  not_sign := by
    intro hmem
    simp only [List.mem_cons, List.not_mem_nil, or_false] at hmem
    rcases hmem with rfl | rfl | rfl <;> exact absurd h (by decide)
  not_operator op hop hmem := by
    have hall : (operators.all fun op => op.tail.all fun d => !Text.isBlank d) = true := by decide
    have hc := List.all_eq_true.mp (List.all_eq_true.mp hall op hop) c hmem
    rw [h] at hc
    cases hc

/-- Brackets and commas end any token. -/
theorem EndsToken.of_mem (h : c ∈ ['(', '[', ')', ']', ',']) : EndsToken c := by
  simp only [List.mem_cons, List.not_mem_nil, or_false] at h
  rcases h with rfl | rfl | rfl | rfl | rfl
  all_goals exact ⟨by decide, by decide, by decide, by decide⟩

namespace EndsToken

theorem not_isAlphanum (h : EndsToken c) : c.isAlphanum = false := by
  rw [Bool.eq_false_iff]
  intro halnum
  have hpart := h.not_isNamePart
  rw [Text.isNamePart, if_pos (Text.toNat_lt_of_isAlphanum halnum), halnum] at hpart
  cases hpart

theorem not_isDigit (h : EndsToken c) : c.isDigit = false := by
  rw [Bool.eq_false_iff]
  intro hdigit
  have halnum := h.not_isAlphanum
  rw [Text.isAlphanum_iff.mpr (.inr hdigit)] at halnum
  cases halnum

theorem ne_underscore (h : EndsToken c) : c ≠ '_' := by
  rintro rfl
  exact absurd h.not_isNamePart (by decide)

theorem toLower_eq (h : EndsToken c) : c.toLower = c := by
  refine dif_neg fun hupper => ?_
  have halpha : c.isAlpha = true := Text.isAlpha_iff.mpr (.inl
    ⟨UInt32.le_iff_toNat_le.mp hupper.1, UInt32.le_iff_toNat_le.mp hupper.2⟩)
  have halnum := h.not_isAlphanum
  rw [Text.isAlphanum_iff.mpr (.inl halpha)] at halnum
  cases halnum

theorem toLower_ne (h : EndsToken c) {letter : Char} (hletter : letter.isAlphanum = true) :
    c.toLower ≠ letter := by
  rw [h.toLower_eq]
  rintro rfl
  rw [h.not_isAlphanum] at hletter
  cases hletter

theorem not_isFlag (h : EndsToken c) : isFlag c = false := by
  have halnum : ['r', 'b', 'u', 'f', 't'].all Char.isAlphanum = true := rfl
  rw [isFlag, decide_eq_false_iff_not]
  exact fun hmem => h.toLower_ne (List.all_eq_true.mp halnum _ hmem) rfl

theorem baseOf?_eq (h : EndsToken c) : baseOf? c = none := by
  unfold baseOf?
  split
  · exact absurd ‹_› (h.toLower_ne (by decide))
  · exact absurd ‹_› (h.toLower_ne (by decide))
  · exact absurd ‹_› (h.toLower_ne (by decide))
  · rfl

theorem not_isDigitOf (h : EndsToken c) (base : Nat) : Text.isDigitOf base c = false := by
  have halnum := h.not_isAlphanum
  rw [Bool.eq_false_iff, Ne, Text.isAlphanum_iff, Text.isAlpha_iff, Text.isDigit_iff] at halnum
  have hvalue : Text.hexValue? c = none := by
    rw [Text.hexValue?, if_neg (by simp [h.not_isDigit]), if_neg, if_neg]
    · rintro ⟨hlow, hhigh⟩
      rw [Char.le_def, UInt32.le_iff_toNat_le] at hlow hhigh
      have : 'A'.val.toNat = 65 := rfl
      have : 'F'.val.toNat = 70 := rfl
      have : c.val.toNat = c.toNat := rfl
      omega
    · rintro ⟨hlow, hhigh⟩
      rw [Char.le_def, UInt32.le_iff_toNat_le] at hlow hhigh
      have : 'a'.val.toNat = 97 := rfl
      have : 'f'.val.toNat = 102 := rfl
      have : c.val.toNat = c.toNat := rfl
      omega
  rw [Text.isDigitOf, hvalue]
  rfl

end EndsToken

/-! ### Lengths of names and numbers -/

theorem length_takeWhile_of_append {p : Char → Bool}
    (h : ((s ++ r).takeWhile p).length ≤ s.length) :
    (s.takeWhile p).length = ((s ++ r).takeWhile p).length := by
  rw [List.takeWhile_append] at h ⊢
  split at h
  · rename_i hall
    rw [if_pos hall]
    rw [List.length_append] at h ⊢
    omega
  · rename_i hall
    rw [if_neg hall]

/-- A length of what is taken of a text. It is not swayed by what stands behind the end of a token,
nor by what is not taken. -/
structure IsLength (f : List Char → Nat) : Prop where
  le (s : List Char) : f s ≤ s.length
  stop (s : List Char) {r : List Char} : Ends r → f (s ++ r) = f s
  cut {s r : List Char} : f (s ++ r) ≤ s.length → f s = f (s ++ r)

namespace IsLength

/-- One length behind another; what is taken then may depend on the text before. -/
theorem seq {α : Type} {f : List Char → Nat} {k : List Char → α} {g : α → List Char → Nat}
    (hf : IsLength f) (hg : ∀ a, IsLength (g a)) (hstop : ∀ s r, Ends r → k (s ++ r) = k s)
    (hcut : ∀ s r, f (s ++ r) + g (k (s ++ r)) ((s ++ r).drop (f (s ++ r))) ≤ s.length →
      k s = k (s ++ r)) :
    IsLength fun s => f s + g (k s) (s.drop (f s)) where
  le s := by
    have hle := (hg (k s)).le (s.drop (f s))
    have := hf.le s
    rw [List.length_drop] at hle
    omega
  stop s r hr := by
    rw [hf.stop s hr, hstop s r hr, List.drop_append_of_le_length (hf.le s), (hg _).stop _ hr]
  cut {s r} h := by
    have hk := hcut s r h
    have hfirst : f s = f (s ++ r) := hf.cut (by omega)
    have hle := hf.le s
    rw [← hfirst, List.drop_append_of_le_length hle] at h ⊢
    rw [hk, (hg _).cut]
    rw [List.length_drop]
    omega

/-- One length behind another. -/
theorem append {f g : List Char → Nat} (hf : IsLength f) (hg : IsLength g) :
    IsLength fun s => f s + g (s.drop (f s)) :=
  hf.seq (k := fun _ => ()) (fun _ => hg) (fun _ _ _ => rfl) (fun _ _ _ => rfl)

/-- A run of characters none of which ends a token. -/
theorem takeWhile {p : Char → Bool} (hp : ∀ c, EndsToken c → p c = false) :
    IsLength fun s => (s.takeWhile p).length where
  le s := (List.takeWhile_sublist p).length_le
  stop s r hr := by
    have hnil : r.takeWhile p = [] := by
      cases r with
      | nil => rfl
      | cons c r => simp [hp c (hr c (by simp))]
    rw [List.takeWhile_append]
    split
    · rename_i hall
      rw [hnil, List.append_nil, hall]
    · rfl
  cut {_ _} h := length_takeWhile_of_append h

theorem digitRun (afterDigit : Bool) : IsLength (digitRun afterDigit) where
  le s := by
    induction s generalizing afterDigit with
    | nil => exact Nat.le_refl _
    | cons c s ih =>
      have hdigit := ih true
      have hunderscore := ih false
      rw [Script.digitRun, List.length_cons]
      split_ifs <;> omega
  stop s r hr := by
    induction s generalizing afterDigit with
    | nil =>
      cases r with
      | nil => rfl
      | cons c r =>
        have hc := hr c (by simp)
        simp [Script.digitRun, hc.not_isDigit, hc.ne_underscore]
    | cons c s ih => rw [List.cons_append, Script.digitRun, Script.digitRun, ih, ih]
  cut {s r} h := by
    induction s generalizing afterDigit with
    | nil => exact (Nat.le_zero.mp h).symm
    | cons c s ih =>
      rw [List.cons_append, Script.digitRun] at h ⊢
      rw [Script.digitRun, List.length_cons] at *
      split_ifs at h ⊢ with hdigit hunderscore
      · rw [ih true (by omega)]
      · rw [ih false (by omega)]
      · rfl

/-- A digit is taken, and so is an underscore with a digit behind it. -/
theorem digitRunOf_cons (base : Nat) (c : Char) (s : List Char) :
    Script.digitRunOf base (c :: s) =
      if Text.isDigitOf base c ∨ (c = '_' ∧ s.head?.any (Text.isDigitOf base)) then
        1 + Script.digitRunOf base s
      else 0 := by
  have hunderscore : Text.isDigitOf base '_' = false := rfl
  by_cases hc : c = '_'
  · subst hc
    cases s with
    | nil => simp [Script.digitRunOf, hunderscore]
    | cons d s =>
      by_cases hd : Text.isDigitOf base d = true
      · have hne : d ≠ '_' := by
          rintro rfl
          rw [hunderscore] at hd
          cases hd
        cases s <;> simp [Script.digitRunOf, hunderscore, hd, hne]
        omega
      · simp [Script.digitRunOf, hunderscore, hd]
  · cases s <;> simp [Script.digitRunOf, hc]

theorem digitRunOf (base : Nat) : IsLength (digitRunOf base) where
  le s := by
    induction s with
    | nil => exact Nat.le_refl _
    | cons c s ih =>
      rw [digitRunOf_cons, List.length_cons]
      split_ifs <;> omega
  stop s r hr := by
    have hhead : ∀ s : List Char, (s ++ r).head?.any (Text.isDigitOf base) =
        s.head?.any (Text.isDigitOf base) := by
      intro s
      cases s with
      | cons c s => rfl
      | nil =>
        cases r with
        | nil => rfl
        | cons c r => simp [(hr c (by simp)).not_isDigitOf base]
    induction s with
    | nil =>
      cases r with
      | nil => rfl
      | cons c r =>
        have hc := hr c (by simp)
        rw [List.nil_append, digitRunOf_cons,
          if_neg (by simp [hc.not_isDigitOf base, hc.ne_underscore])]
        rfl
    | cons c s ih => rw [List.cons_append, digitRunOf_cons, digitRunOf_cons, ih, hhead]
  cut {s r} h := by
    induction s with
    | nil => exact (Nat.le_zero.mp h).symm
    | cons c s ih =>
      have hhead : c = '_' → (s ++ r).head?.any (Text.isDigitOf base) =
          s.head?.any (Text.isDigitOf base) := by
        rintro rfl
        cases s with
        | cons d s => rfl
        | nil =>
          cases r with
          | nil => rfl
          | cons d r =>
            -- A digit behind the underscore would be taken too.
            by_contra hd
            have hd : Text.isDigitOf base d = true := by simpa using hd
            have htaken : Script.digitRunOf base (d :: r) = 1 + Script.digitRunOf base r := by
              rw [digitRunOf_cons, if_pos (.inl hd)]
            rw [List.singleton_append, digitRunOf_cons, if_pos (.inr ⟨rfl, hd⟩), htaken,
              List.length_singleton] at h
            omega
      rw [List.cons_append, digitRunOf_cons] at h ⊢
      rw [digitRunOf_cons]
      by_cases hc : Text.isDigitOf base c = true ∨
          (c = '_' ∧ s.head?.any (Text.isDigitOf base) = true)
      · have hc' : Text.isDigitOf base c = true ∨
            (c = '_' ∧ (s ++ r).head?.any (Text.isDigitOf base) = true) :=
          hc.imp_right fun h => ⟨h.1, (hhead h.1).trans h.2⟩
        rw [if_pos hc', List.length_cons] at h
        rw [if_pos hc, if_pos hc', ih (by omega)]
      · rw [if_neg hc, if_neg]
        exact fun h => hc (h.imp_right fun h => ⟨h.1, (hhead h.1).symm.trans h.2⟩)

/-- A length behind a first character that ends no token, or nothing. -/
theorem guarded {p : Char → Bool} {g : List Char → Nat} (hp : ∀ c, EndsToken c → p c = false)
    (hg : IsLength g) : IsLength fun s => if s.head?.any p then 1 + g s.tail else 0 where
  le s := by
    cases s with
    | nil => simp
    | cons c s =>
      have := hg.le s
      rw [List.tail_cons, List.length_cons]
      split_ifs <;> omega
  stop s r hr := by
    cases s with
    | cons c s => rw [List.cons_append, List.tail_cons, List.tail_cons, hg.stop s hr]; rfl
    | nil =>
      cases r with
      | nil => rfl
      | cons c r => simp [hp c (hr c (by simp))]
  cut {s r} h := by
    cases s with
    | nil => exact (Nat.le_zero.mp h).symm
    | cons c s =>
      rw [List.cons_append, List.head?_cons, List.tail_cons] at h ⊢
      rw [List.head?_cons, List.tail_cons]
      split_ifs at h ⊢
      · rw [hg.cut]
        rw [List.length_cons] at h
        omega
      · rfl

/-- The length of a first character and of what stands behind it, or nothing if one of them is
missing. -/
def behind (p : Char → Bool) (g : Char → List Char → Nat) : List Char → Nat
  | [] => 0
  | c :: s => if p c = true ∧ g c s ≠ 0 then 1 + g c s else 0

theorem behind_isLength {p : Char → Bool} {g : Char → List Char → Nat}
    (hp : ∀ c, EndsToken c → p c = false) (hg : ∀ c, IsLength (g c)) : IsLength (behind p g) where
  le s := by
    cases s with
    | nil => exact Nat.le_refl _
    | cons c s =>
      have := (hg c).le s
      rw [behind, List.length_cons]
      split_ifs <;> omega
  stop s r hr := by
    cases s with
    | cons c s => rw [List.cons_append, behind, behind, (hg c).stop s hr]
    | nil =>
      cases r with
      | nil => rfl
      | cons c r => simp [behind, hp c (hr c (by simp))]
  cut {s r} h := by
    cases s with
    | nil => exact (Nat.le_zero.mp h).symm
    | cons c s =>
      rw [List.cons_append, behind] at h ⊢
      rw [behind]
      by_cases hc : p c = true
      · have hcut : g c s = g c (s ++ r) := by
          apply (hg c).cut
          by_cases hnone : g c (s ++ r) = 0
          · omega
          · rw [if_pos ⟨hc, hnone⟩, List.length_cons] at h
            omega
        rw [hcut]
      · rw [if_neg fun h => hc h.1, if_neg fun h => hc h.1]

theorem zero : IsLength fun _ => 0 where
  le _ := Nat.zero_le _
  stop _ _ _ := rfl
  cut {_ _} _ := rfl

theorem suffixLength {letters : List Char} (h : letters.all Char.isAlphanum = true) :
    IsLength (suffixLength letters) :=
  guarded (fun c hc => by
    rw [decide_eq_false_iff_not]
    exact fun hmem => hc.toLower_ne (List.all_eq_true.mp h _ hmem) rfl) zero

theorem fractionLength : IsLength fractionLength := by
  have heq : Script.fractionLength = fun s : List Char =>
      if s.head?.any (· == '.') then 1 + Script.digitRun false s.tail else 0 := by
    funext s
    unfold Script.fractionLength
    split
    · rfl
    · rename_i hne
      cases s with
      | nil => rfl
      | cons c s =>
        have hc : c ≠ '.' := by
          rintro rfl
          exact hne s rfl
        simp [hc]
  rw [heq]
  exact guarded (fun c hc => beq_eq_false_iff_ne.mpr fun h => hc.not_sign (by simp [h]))
    (digitRun false)

/-- The length of the sign of an exponent. -/
def signLength (s : List Char) : Nat :=
  if s.head?.any fun c => c == '+' || c == '-' then 1 else 0

theorem signLength_isLength : IsLength signLength :=
  guarded (fun c hc => by
    have := hc.not_sign
    simp_all) zero

/-- The length of digits with a sign or without. A sign alone is not taken. -/
def signedLength (s : List Char) : Nat :=
  if Script.digitRun false (s.drop (signLength s)) = 0 then 0
  else signLength s + Script.digitRun false (s.drop (signLength s))

theorem signedLength_isLength : IsLength signedLength where
  le s := by
    have := (signLength_isLength.append (digitRun false)).le s
    rw [signedLength]
    split_ifs <;> omega
  stop s r hr := by
    rw [signedLength, signedLength, signLength_isLength.stop s hr,
      List.drop_append_of_le_length (signLength_isLength.le s), (digitRun false).stop _ hr]
  cut {s r} h := by
    rw [signedLength] at h ⊢
    rw [signedLength]
    cases s with
    | nil =>
      rw [List.length_nil, Nat.le_zero] at h
      rw [h]
      rfl
    | cons c s =>
      have hsign : signLength (c :: s) = signLength (c :: s ++ r) := rfl
      rw [← hsign, List.drop_append_of_le_length (signLength_isLength.le _)] at h ⊢
      have hdigits : Script.digitRun false ((c :: s).drop (signLength (c :: s))) =
          Script.digitRun false ((c :: s).drop (signLength (c :: s)) ++ r) := by
        apply (digitRun false).cut
        rw [List.length_drop]
        split_ifs at h <;> omega
      rw [hdigits]

theorem exponentLength : IsLength exponentLength := by
  have heq : Script.exponentLength = behind (·.toLower == 'e') fun _ => signedLength := by
    funext s
    cases s with
    | nil => rfl
    | cons c s =>
      have hsign : (if s.head? = some '+' ∨ s.head? = some '-' then 1 else 0) = signLength s := by
        cases s <;> simp [signLength]
      simp only [Script.exponentLength, hsign, behind, signedLength, Nat.add_assoc]
      split_ifs <;> simp_all
  rw [heq]
  exact behind_isLength (fun c hc => beq_eq_false_iff_ne.mpr (hc.toLower_ne (by decide)))
    fun _ => signedLength_isLength

theorem basedLength : IsLength basedLength := by
  have heq : Script.basedLength = behind (· == '0') fun _ =>
      behind (baseOf? · |>.isSome) fun d => Script.digitRunOf ((baseOf? d).getD 0) := by
    funext s
    unfold Script.basedLength
    split
    · rename_i d s
      cases hbase : baseOf? d <;> simp [behind, hbase]
      split_ifs <;> omega
    · rename_i hne
      rcases s with _ | ⟨c, _ | ⟨d, s⟩⟩
      · rfl
      · simp [behind]
      · have hc : c ≠ '0' := by
          rintro rfl
          exact hne d s rfl
        simp [behind, hc]
  rw [heq]
  refine behind_isLength (fun c hc => beq_eq_false_iff_ne.mpr ?_) fun _ =>
    behind_isLength (fun c hc => by simp [hc.baseOf?_eq]) fun d => digitRunOf _
  rintro rfl
  exact absurd hc.not_isDigit (by decide)

/-- The length of what may follow the whole part of a number. -/
def pointLength (s : List Char) : Nat :=
  Script.fractionLength s + Script.exponentLength (s.drop (Script.fractionLength s))

theorem pointLength_isLength : IsLength pointLength :=
  fractionLength.append exponentLength

/-- The length of a number in decimal digits, without the letter at its end. -/
def decimalLength (s : List Char) : Nat :=
  Script.digitRun false s + pointLength (s.drop (Script.digitRun false s))

theorem decimalLength_isLength : IsLength decimalLength :=
  (digitRun false).append pointLength_isLength

/-- Whether a number in decimal digits is whole. -/
def isWhole (s : List Char) : Bool :=
  pointLength (s.drop (Script.digitRun false s)) == 0

/-- The length of a number in decimal digits. -/
def decimalNumberLength (s : List Char) : Nat :=
  decimalLength s +
    Script.suffixLength (if isWhole s then ['j', 'l'] else ['j']) (s.drop (decimalLength s))

theorem decimalNumberLength_isLength : IsLength decimalNumberLength := by
  refine decimalLength_isLength.seq (k := isWhole)
    (g := fun whole => Script.suffixLength (if whole then ['j', 'l'] else ['j']))
    (fun whole => suffixLength (by cases whole <;> rfl)) (fun s r hr => ?_) (fun s r h => ?_)
  · have hle := (digitRun false).le s
    rw [isWhole, isWhole, (digitRun false).stop s hr, List.drop_append_of_le_length hle,
      pointLength_isLength.stop _ hr]
  · rw [decimalLength] at h
    have hdigits := (digitRun false).cut (s := s) (r := r) (by omega)
    have hle := (digitRun false).le s
    rw [← hdigits, List.drop_append_of_le_length hle] at h
    have hpoint := pointLength_isLength.cut (s := s.drop (Script.digitRun false s)) (r := r)
      (by rw [List.length_drop]; omega)
    rw [isWhole, isWhole, ← hdigits, List.drop_append_of_le_length hle, hpoint]

theorem numberLength_eq (s : List Char) :
    Script.numberLength s = Script.basedLength s +
      (if (Script.basedLength s != 0) = true then Script.suffixLength ['l']
        else decimalNumberLength) (s.drop (Script.basedLength s)) := by
  rw [Script.numberLength]
  by_cases hbased : Script.basedLength s = 0
  · rw [if_neg (by simpa using hbased), if_neg (by simp [hbased]), hbased, List.drop_zero,
      Nat.zero_add, decimalNumberLength, decimalLength, isWhole, pointLength, List.drop_drop]
    simp [Nat.add_assoc]
  · rw [if_pos hbased, if_pos (by simpa using hbased)]

theorem numberLength : IsLength numberLength := by
  have heq : Script.numberLength = fun s => Script.basedLength s +
      (if (Script.basedLength s != 0) = true then Script.suffixLength ['l']
        else decimalNumberLength) (s.drop (Script.basedLength s)) := funext numberLength_eq
  rw [heq]
  refine basedLength.seq (k := fun s => Script.basedLength s != 0)
    (g := fun based => if based = true then Script.suffixLength ['l'] else decimalNumberLength)
    (fun based => ?_) (fun s r hr => ?_) (fun s r h => ?_)
  · cases based
    · exact decimalNumberLength_isLength
    · exact suffixLength rfl
  · rw [basedLength.stop s hr]
  · rw [basedLength.cut (s := s) (r := r) (by omega)]

/-- A point and a digit are part of a number. -/
theorem two_le_numberLength {d : Char} (hd : d.isDigit = true) (s : List Char) :
    2 ≤ Script.numberLength ('.' :: d :: s) := by
  have hbased : Script.basedLength ('.' :: d :: s) = 0 := rfl
  simp [Script.numberLength, hbased, Script.digitRun, Script.fractionLength, hd]
  omega

end IsLength

/-! ### Tokens that are no strings -/

/-- The kind and the length of the token that begins a text, unless it is a string. -/
def plainScan (s : List Char) : Kind × Nat :=
  match s with
  | [] => (.stray, 0)
  | c :: rest =>
    if Text.isNameStart c then (.name, (s.takeWhile Text.isNamePart).length)
    else if c.isDigit || (c == '.' && rest.head?.any Char.isDigit) then (.number, numberLength s)
    else if c = '#' then (.remark, (s.takeWhile (· != '\n')).length)
    else if c = '\n' then (.lineEnd, 1)
    else if c ∈ ['(', '[', '\x7b'] then (.opening, 1)
    else if c ∈ [')', ']', '\x7d'] then (.closing, 1)
    else
      match operator? s with
      | some op => (.operator, op.length)
      | none => (.stray, 1)

/-- Whether a text begins with a string. -/
def opensString (s : List Char) : Bool :=
  (s.dropWhile isFlag).head?.any isMark

theorem drop_length_takeWhile {p : Char → Bool} (s : List Char) :
    s.drop (s.takeWhile p).length = s.dropWhile p := by
  calc s.drop (s.takeWhile p).length
      = (s.takeWhile p ++ s.dropWhile p).drop (s.takeWhile p).length := by
        rw [List.takeWhile_append_dropWhile]
    _ = s.dropWhile p := List.drop_left

theorem quotation?_eq_none (h : opensString s = false) (flags : List Char) :
    quotation? flags (s.dropWhile isFlag) = none := by
  rw [opensString] at h
  cases hrest : s.dropWhile isFlag with
  | nil => rfl
  | cons c rest =>
    rw [hrest] at h
    have hmark : isMark c = false := by simpa using h
    simp [quotation?, hmark]

theorem scan_eq_plainScan (h : opensString s = false) : scan s = plainScan s := by
  cases s with
  | nil => rfl
  | cons c rest =>
    have hnone : stringLength ((c :: rest).takeWhile isFlag)
        ((c :: rest).drop ((c :: rest).takeWhile isFlag).length) = none := by
      rw [drop_length_takeWhile, stringLength, quotation?_eq_none h]
      rfl
    rw [scan]
    simp only [hnone]
    rfl

theorem opensString_append (s : List Char) (hr : Ends r) :
    opensString (s ++ r) = opensString s := by
  induction s with
  | nil =>
    cases r with
    | nil => rfl
    | cons c r =>
      have hc := hr c (by simp)
      simp [opensString, hc.not_isFlag, hc.not_isMark]
  | cons c s ih =>
    rw [opensString, opensString] at ih ⊢
    rw [List.cons_append, List.dropWhile_cons, List.dropWhile_cons]
    split
    · exact ih
    · rfl

theorem opensString_of_append (h : opensString (s ++ r) = false) : opensString s = false := by
  induction s with
  | nil => rfl
  | cons c s ih =>
    rw [opensString, List.cons_append, List.dropWhile_cons] at h
    rw [opensString, List.dropWhile_cons]
    split at h
    · rename_i hflag
      rw [if_pos hflag]
      exact ih h
    · rename_i hflag
      rw [if_neg hflag]
      exact h

/-- No operator goes beyond the end of a token. -/
theorem isPrefixOf_append {op : List Char} (hop : op ∈ operators) (hs : s ≠ []) (hr : Ends r) :
    op.isPrefixOf (s ++ r) = op.isPrefixOf s := by
  rw [Bool.eq_iff_iff, List.isPrefixOf_iff_prefix, List.isPrefixOf_iff_prefix]
  constructor
  · intro h
    by_contra hnot
    have hlt : s.length < op.length := by
      by_contra hle
      exact hnot (List.prefix_of_prefix_length_le h (List.prefix_append s r) (by omega))
    obtain ⟨more, rfl⟩ := List.prefix_of_prefix_length_le (List.prefix_append s r) h (by omega)
    rw [List.prefix_append_right_inj] at h
    cases more with
    | nil => simp at hlt
    | cons c more =>
      obtain ⟨rest, rfl⟩ := h
      have hc := (hr c (by simp)).not_operator _ hop
      obtain ⟨d, s, rfl⟩ := List.exists_cons_of_ne_nil hs
      exact hc (by simp)
  · intro h
    exact h.trans (List.prefix_append s r)

theorem operator?_append (hs : s ≠ []) (hr : Ends r) : operator? (s ++ r) = operator? s := by
  have hops : ∀ ops ⊆ operators,
      ops.find? (·.isPrefixOf (s ++ r)) = ops.find? (·.isPrefixOf s) := by
    intro ops hops
    induction ops with
    | nil => rfl
    | cons op ops ih =>
      rw [List.cons_subset] at hops
      rw [List.find?_cons, List.find?_cons, isPrefixOf_append hops.1 hs hr, ih hops.2]
  exact hops operators (List.Subset.refl _)

theorem operator?_of_append (h : ∀ op ∈ operator? (s ++ r), op.length ≤ s.length) :
    operator? s = operator? (s ++ r) := by
  cases hop : operator? (s ++ r) with
  | none =>
    rw [operator?, List.find?_eq_none] at hop ⊢
    intro op hmem hbegins
    rw [List.isPrefixOf_iff_prefix] at hbegins
    exact hop op hmem (List.isPrefixOf_iff_prefix.mpr (hbegins.trans (List.prefix_append s r)))
  | some op =>
    have hle := h op hop
    rw [operator?, List.find?_eq_some_iff_append] at hop ⊢
    obtain ⟨hbegins, before, after, hsplit, hbefore⟩ := hop
    rw [List.isPrefixOf_iff_prefix] at hbegins
    refine ⟨?_, before, after, hsplit, fun op' hop' => ?_⟩
    · exact List.isPrefixOf_iff_prefix.mpr
        (List.prefix_of_prefix_length_le hbegins (List.prefix_append s r) hle)
    · have hnot := hbefore op' hop'
      rw [Bool.not_eq_true', Bool.eq_false_iff, Ne, List.isPrefixOf_iff_prefix] at hnot ⊢
      exact fun h => hnot (h.trans (List.prefix_append s r))

theorem nameLength : IsLength fun s => (s.takeWhile Text.isNamePart).length :=
  .takeWhile fun _ hc => hc.not_isNamePart

/-- The end of a token ends it, whatever stands behind. -/
theorem plainScan_append (hs : s ≠ []) (hremark : s.head? ≠ some '#') (hr : Ends r) :
    plainScan (s ++ r) = plainScan s := by
  obtain ⟨c, rest, rfl⟩ := List.exists_cons_of_ne_nil hs
  have hdigit : (rest ++ r).head?.any Char.isDigit = rest.head?.any Char.isDigit := by
    cases rest with
    | cons d rest => rfl
    | nil =>
      cases r with
      | nil => rfl
      | cons d r => simp [(hr d (by simp)).not_isDigit]
  have hne : c ≠ '#' := by simpa using hremark
  have hname := nameLength.stop (c :: rest) hr
  have hnumber := IsLength.numberLength.stop (c :: rest) hr
  have hoperator := operator?_append hs hr
  rw [List.cons_append] at hname hnumber hoperator ⊢
  simp only [plainScan, hname, hnumber, hoperator, hdigit, hne, if_false]

/-- What is not taken has no part in a token. -/
theorem plainScan_of_append (hs : s ≠ []) (h : (plainScan (s ++ r)).2 ≤ s.length) :
    plainScan s = plainScan (s ++ r) := by
  obtain ⟨c, rest, rfl⟩ := List.exists_cons_of_ne_nil hs
  have hdigit : c = '.' → (plainScan (c :: rest ++ r)).2 ≤ (c :: rest).length →
      (rest ++ r).head?.any Char.isDigit = rest.head?.any Char.isDigit := by
    rintro rfl h
    cases rest with
    | cons d rest => rfl
    | nil =>
      cases r with
      | nil => rfl
      | cons d r =>
        -- A digit behind the point would be taken too.
        by_contra hd
        have hd : d.isDigit = true := by simpa using hd
        have hnumber := IsLength.two_le_numberLength hd r
        have hname : Text.isNameStart '.' = false := by decide
        simp [plainScan, hname, hd] at h
        omega
  replace hdigit := fun hc => hdigit hc h
  have hpoint : (c == '.' && (rest ++ r).head?.any Char.isDigit) =
      (c == '.' && rest.head?.any Char.isDigit) := by
    by_cases hc : c = '.'
    · rw [hdigit hc]
    · simp only [beq_eq_false_iff_ne.mpr hc, Bool.false_and]
  have hname := nameLength.cut (s := c :: rest) (r := r)
  have hnumber := IsLength.numberLength.cut (s := c :: rest) (r := r)
  have hoperator := operator?_of_append (s := c :: rest) (r := r)
  rw [List.cons_append] at h hname hnumber hoperator ⊢
  simp only [plainScan, hpoint] at h ⊢
  split_ifs at h ⊢
  · rw [hname h]
  · rw [hnumber h]
  · rw [← List.cons_append] at h ⊢
    rw [length_takeWhile_of_append h]
  · rfl
  · rfl
  · rfl
  · rw [hoperator]
    intro op hop
    rw [hop] at h
    exact h

end Scriptorium.Script
