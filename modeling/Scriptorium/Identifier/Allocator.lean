/-
Handing out identifiers without collisions.

The first claim of a sanitized name gets it unchanged; later ones get the least free suffix from
two on. Among as many suffixes as names are taken, and one more, one is free.
-/

import Scriptorium.Identifier.Basic

namespace Scriptorium.Identifier

/-- The identifiers handed out so far, the last one first. -/
structure Allocator where
  taken : List String := []
deriving DecidableEq, Inhabited

/-- What a name is claimed as, before suffixes: an underscore if nothing is left of it. -/
def base (name : String) : String :=
  if sanitize name = "" then "_" else sanitize name

/-- An identifier with a number behind it. -/
def suffixed (base : String) (k : Nat) : String :=
  base ++ "_" ++ String.ofList (Nat.toDigits 10 k)

namespace Allocator

/-- Whether an identifier has been handed out. -/
def isTaken (a : Allocator) (identifier : String) : Bool :=
  a.taken.contains identifier

/-- The least number from two on whose suffix is free. -/
def freeSuffix (a : Allocator) (base : String) : Nat :=
  (((List.range (a.taken.length + 1)).find? fun k => !a.isTaken (suffixed base (k + 2))).getD 0) + 2

/-- The identifier that the next claim of a name gets. -/
def fresh (a : Allocator) (name : String) : String :=
  if a.isTaken (base name) then suffixed (base name) (a.freeSuffix (base name)) else base name

/-- Claims an identifier for a name. -/
def claim (a : Allocator) (name : String) : String × Allocator :=
  (a.fresh name, ⟨a.fresh name :: a.taken⟩)

/-- Claims identifiers for names, in order. -/
def claimAll (a : Allocator) : List String → List String
  | [] => []
  | name :: names => (a.claim name).1 :: (a.claim name).2.claimAll names

@[simp] theorem length_claimAll (a : Allocator) (names : List String) :
    (a.claimAll names).length = names.length := by
  induction names generalizing a with
  | nil => rfl
  | cons name names ih => simp [claimAll, ih]

end Allocator

end Scriptorium.Identifier
