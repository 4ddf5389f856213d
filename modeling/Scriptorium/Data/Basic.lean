/-
Data trees: what the exchange formats write.
-/

import Scriptorium.Decimal.Binary64

namespace Scriptorium

/-- A tree of plain data. The keys of a map keep their order. -/
inductive Data where
  | null
  | bool (b : Bool)
  | int (n : Int)
  | float (x : Binary64)
  | str (s : String)
  | seq (items : List Data)
  | map (entries : List (String × Data))
deriving Inhabited

namespace Data

/-- A sequence of strings. -/
def strs (items : List String) : Data :=
  seq (items.map str)

/-- A string, or null for none. -/
def ofOption : Option String → Data
  | some s => str s
  | none => null

/-- An entry that is left out if there is no value. -/
def entryOf (key : String) (value : Option Data) : List (String × Data) :=
  value.toList.map (key, ·)

end Data

end Scriptorium
