/-
Sets of code points as closed ranges, and the size of characters in bytes.

Tables of character properties are ascending lists of ranges; membership is a search.
-/

namespace Scriptorium.Text

/-! ### Ranges -/

/-- Whether `n` lies in one of the closed ranges. -/
def inRanges (ranges : List (Nat × Nat)) (n : Nat) : Bool :=
  ranges.any fun r => r.1 ≤ n && n ≤ r.2

theorem inRanges_iff {ranges : List (Nat × Nat)} {n : Nat} :
    inRanges ranges n = true ↔ ∃ r ∈ ranges, r.1 ≤ n ∧ n ≤ r.2 := by
  simp [inRanges]

/-! ### Sizes -/

/-- The number of bytes of a text in UTF-8. -/
def byteSize : List Char → Nat
  | [] => 0
  | c :: s => c.utf8Size + byteSize s

@[simp] theorem byteSize_nil : byteSize [] = 0 := rfl

@[simp] theorem byteSize_cons (c : Char) (s : List Char) :
    byteSize (c :: s) = c.utf8Size + byteSize s := rfl

@[simp] theorem byteSize_append (s t : List Char) :
    byteSize (s ++ t) = byteSize s + byteSize t := by
  induction s with
  | nil => simp
  | cons c s ih => simp [ih, Nat.add_assoc]

end Scriptorium.Text
