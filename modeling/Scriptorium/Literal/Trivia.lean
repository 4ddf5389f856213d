/-
What may stand between the parts of a literal: blanks, continued lines and remarks.
-/

import Scriptorium.Text.Blank

namespace Scriptorium.Literal

/-- Whether a line ends here. -/
def atLineEnd : List Char → Bool
  | c :: _ => c == '\n' || c == '\r'
  | [] => false

/-- Drops blanks, remarks, and backslashes that end a line. A remark runs from `#` to the end of
its line; `inRemark` says that one has begun. -/
def skipTriviaFrom : (inRemark : Bool) → List Char → List Char
  | _, [] => []
  | true, c :: s => skipTriviaFrom (c != '\n') s
  | false, c :: s =>
    if Text.isBlank c then skipTriviaFrom false s
    else if c = '#' then skipTriviaFrom true s
    else if c = '\\' ∧ atLineEnd s = true then skipTriviaFrom false s
    else c :: s

/-- Drops the blanks, remarks and continued line ends at the beginning of a text. -/
def skipTrivia (s : List Char) : List Char :=
  skipTriviaFrom false s

theorem length_skipTriviaFrom_le (inRemark : Bool) (s : List Char) :
    (skipTriviaFrom inRemark s).length ≤ s.length := by
  induction s generalizing inRemark with
  | nil => cases inRemark <;> simp [skipTriviaFrom]
  | cons c s ih =>
    cases inRemark with
    | true => exact Nat.le_succ_of_le (ih _)
    | false =>
      simp only [skipTriviaFrom]
      split
      · exact Nat.le_succ_of_le (ih _)
      split
      · exact Nat.le_succ_of_le (ih _)
      split
      · exact Nat.le_succ_of_le (ih _)
      · exact Nat.le_refl _

theorem length_skipTrivia_le (s : List Char) : (skipTrivia s).length ≤ s.length :=
  length_skipTriviaFrom_le false s

end Scriptorium.Literal
