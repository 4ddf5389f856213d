/-
Digits of a base up to sixteen, and the number that a run of them denotes.
-/

namespace Scriptorium.Text

/-- The value of an ASCII digit or a letter from `a` to `f` of either case. -/
def hexValue? (c : Char) : Option Nat :=
  if c.isDigit then some (c.toNat - 0x30)
  else if 'a' ≤ c ∧ c ≤ 'f' then some (c.toNat - 0x57)
  else if 'A' ≤ c ∧ c ≤ 'F' then some (c.toNat - 0x37)
  else none

/-- Whether `c` is a digit of the base. -/
def isDigitOf (base : Nat) (c : Char) : Bool :=
  (hexValue? c).any (· < base)

/-- The number written with the given digits, the greatest place first. -/
def ofDigits (base : Nat) (digits : List Char) : Nat :=
  digits.foldl (fun n c => n * base + (hexValue? c).getD 0) 0

/-- One more digit behind is one more place. -/
theorem ofDigits_append_singleton (base : Nat) (digits : List Char) (c : Char) :
    ofDigits base (digits ++ [c]) = ofDigits base digits * base + (hexValue? c).getD 0 := by
  simp [ofDigits]

/-- The places of more digits behind. -/
theorem ofDigits_append (base : Nat) (s t : List Char) :
    ofDigits base (s ++ t) = ofDigits base s * Nat.pow base t.length + ofDigits base t := by
  have hfrom (n : Nat) : t.foldl (fun n c => n * base + (hexValue? c).getD 0) n =
      n * Nat.pow base t.length + ofDigits base t := by
    unfold ofDigits
    induction t generalizing n with
    | nil => simp
    | cons c t ih =>
      have hpow : Nat.pow base (t.length + 1) = Nat.pow base t.length * base := rfl
      rw [List.foldl_cons, List.foldl_cons, ih, ih (0 * base + _), List.length_cons, hpow]
      simp only [Nat.zero_mul, Nat.zero_add, Nat.add_mul, Nat.mul_assoc, Nat.mul_comm base,
        Nat.add_assoc]
  rw [ofDigits, List.foldl_append]
  exact hfrom _

theorem ofDigits_replicate_zero (base n : Nat) : ofDigits base (List.replicate n '0') = 0 := by
  induction n with
  | zero => rfl
  | succ n ih =>
    rw [List.replicate_succ', ofDigits_append_singleton, ih, Nat.zero_mul]
    rfl

/-- Zeros before the digits say nothing. -/
theorem ofDigits_zeros_append (base n : Nat) (s : List Char) :
    ofDigits base (List.replicate n '0' ++ s) = ofDigits base s := by
  rw [ofDigits_append, ofDigits_replicate_zero, Nat.zero_mul, Nat.zero_add]

/-- Zeros behind the digits are so many places more. -/
theorem ofDigits_append_zeros (base n : Nat) (s : List Char) :
    ofDigits base (s ++ List.replicate n '0') = ofDigits base s * Nat.pow base n := by
  rw [ofDigits_append, ofDigits_replicate_zero, List.length_replicate, Nat.add_zero]

/-- The decimal digits of a number denote it. -/
theorem ofDigits_toDigits (n : Nat) : ofDigits 10 (Nat.toDigits 10 n) = n := by
  have hdigit : ∀ m < 10, (hexValue? (Nat.digitChar m)).getD 0 = m := by decide
  induction n using Nat.strongRecOn with
  | ind n ih =>
    by_cases hsmall : n < 10
    · rw [Nat.toDigits_of_lt_base hsmall]
      simpa [ofDigits] using hdigit n hsmall
    · rw [Nat.toDigits_of_base_le (by decide) (by omega), ofDigits_append_singleton,
        ih (n / 10) (by omega), hdigit _ (Nat.mod_lt n (by decide))]
      omega

/-- The two lower-case hexadecimal digits of a number below 256. -/
def hexByte (n : Nat) : List Char :=
  [Nat.digitChar (n / 16 % 16), Nat.digitChar (n % 16)]

end Scriptorium.Text
