/-
The parts of a literal at all depths, and induction over its displays.
-/

import Scriptorium.Literal.Basic

namespace Scriptorium.Literal

/-! ### Induction -/

/-- To prove a fact about all literals, it may be assumed of the items, keys and values of a
display. -/
@[elab_as_elim]
theorem inductionOn {motive : Literal → Prop} (v : Literal) (null : motive .null)
    (bool : ∀ b, motive (.bool b)) (int : ∀ n, motive (.int n)) (float : ∀ x, motive (.float x))
    (str : ∀ s, motive (.str s))
    (list : ∀ items, (∀ w ∈ items, motive w) → motive (.list items))
    (tuple : ∀ items, (∀ w ∈ items, motive w) → motive (.tuple items))
    (set : ∀ items, (∀ w ∈ items, motive w) → motive (.set items))
    (dict : ∀ pairs, (∀ p ∈ pairs, motive p.1 ∧ motive p.2) → motive (.dict pairs)) :
    motive v :=
  match v with
  | .null => null
  | .bool b => bool b
  | .int n => int n
  | .float x => float x
  | .str s => str s
  | .list items =>
    list items fun w _ => inductionOn w null bool int float str list tuple set dict
  | .tuple items =>
    tuple items fun w _ => inductionOn w null bool int float str list tuple set dict
  | .set items =>
    set items fun w _ => inductionOn w null bool int float str list tuple set dict
  | .dict pairs =>
    dict pairs fun p _ =>
      ⟨inductionOn p.1 null bool int float str list tuple set dict,
        inductionOn p.2 null bool int float str list tuple set dict⟩
termination_by sizeOf v
decreasing_by
  all_goals
    have := List.sizeOf_lt_of_mem ‹_›
    simp_wf
    try cases p
    grind

/-! ### Parts -/

mutual

/-- A literal with everything in it: the items, keys and values of displays at all depths. -/
def parts : Literal → List Literal
  | list items => list items :: partsOfItems items
  | tuple items => tuple items :: partsOfItems items
  | set items => set items :: partsOfItems items
  | dict pairs => dict pairs :: partsOfPairs pairs
  | v => [v]

/-- The parts of items. -/
def partsOfItems : List Literal → List Literal
  | [] => []
  | item :: items => parts item ++ partsOfItems items

/-- The parts of keys and values. -/
def partsOfPairs : List (Literal × Literal) → List Literal
  | [] => []
  | (key, value) :: pairs => parts key ++ (parts value ++ partsOfPairs pairs)

end

theorem self_mem_parts (v : Literal) : v ∈ v.parts := by
  cases v <;> simp [parts]

theorem mem_partsOfItems {w : Literal} {items : List Literal} :
    w ∈ partsOfItems items ↔ ∃ v ∈ items, w ∈ v.parts := by
  induction items with
  | nil => simp [partsOfItems]
  | cons v items ih => simp [partsOfItems, ih]

theorem mem_partsOfPairs {w : Literal} {pairs : List (Literal × Literal)} :
    w ∈ partsOfPairs pairs ↔ ∃ p ∈ pairs, w ∈ p.1.parts ∨ w ∈ p.2.parts := by
  induction pairs with
  | nil => simp [partsOfPairs]
  | cons p pairs ih =>
    obtain ⟨key, value⟩ := p
    simp [partsOfPairs, ih, or_assoc]

end Scriptorium.Literal
