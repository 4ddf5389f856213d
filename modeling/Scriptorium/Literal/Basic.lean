/-
Constant literals: what a constant expression denotes.

A dictionary keeps its pairs as they are written, repeated keys included, and a set its items.
`sameValue` compares by value: the two zeros are equal, and what is no number equals nothing.
-/

import Scriptorium.Decimal.Binary64

namespace Scriptorium

/-- A constant. -/
inductive Literal where
  | null
  | bool (b : Bool)
  | int (n : Int64)
  | float (x : Binary64)
  | str (s : String)
  | list (items : List Literal)
  | tuple (items : List Literal)
  | set (items : List Literal)
  | dict (pairs : List (Literal × Literal))
deriving Inhabited

namespace Literal

/-- Neither a display nor a part of one. -/
def isScalar : Literal → Bool
  | null | bool _ | int _ | float _ | str _ => true
  | list _ | tuple _ | set _ | dict _ => false

/-- The text of a string. -/
def str? : Literal → Option String
  | str s => some s
  | _ => none

/-! ### Equality of values -/

mutual

/-- Whether two literals have the same kind and the same value. -/
def sameValue : Literal → Literal → Bool
  | null, null => true
  | bool a, bool b => a == b
  | int a, int b => a == b
  | float a, float b => a.sameValue b
  | str a, str b => a == b
  | list a, list b => sameItems a b
  | tuple a, tuple b => sameItems a b
  | set a, set b => sameItems a b
  | dict a, dict b => samePairs a b
  | _, _ => false

/-- Equality of values, item by item. -/
def sameItems : List Literal → List Literal → Bool
  | [], [] => true
  | a :: as, b :: bs => sameValue a b && sameItems as bs
  | _, _ => false

/-- Equality of values, pair by pair. -/
def samePairs : List (Literal × Literal) → List (Literal × Literal) → Bool
  | [], [] => true
  | (a, b) :: as, (c, d) :: bs => sameValue a c && sameValue b d && samePairs as bs
  | _, _ => false

end

end Literal

end Scriptorium
