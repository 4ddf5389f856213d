/-
Identifiers that are claimed one after the other are distinct, and each is the first that was free.

The search for a suffix counts up without a bound. It ends because among more suffixes than
identifiers handed out one is free (`exists_free`), and it ends at the least of these
(`isLeast_freeSuffix`). So a claim hands out an identifier that was free (`grants_fresh`); by
induction over the names the identifiers of a run are distinct (`nodup_claimAll`), and they are
those that are taken in the end (`taken_afterAll`).
-/

import Mathlib
import Scriptorium.Proofs.Identifier.Form

namespace Scriptorium.Identifier.Allocator

variable {a : Allocator} {base : String} {k n : Nat}

theorem isTaken_eq_true : a.isTaken base = true ↔ base ∈ a.taken := by
  rw [isTaken, List.contains_iff_mem]

theorem isTaken_eq_false : a.isTaken base = false ↔ base ∉ a.taken := by
  rw [Bool.eq_false_iff, Ne, isTaken_eq_true]

/-! ### The search for a suffix -/

/-- Counting up from a number, the search for a suffix that is free ends at a number. -/
inductive Search (a : Allocator) (base : String) : Nat → Nat → Prop where
  | free {k : Nat} : a.isTaken (suffixed base k) = false → Search a base k k
  | next {k n : Nat} : a.isTaken (suffixed base k) = true → Search a base (k + 1) n →
      Search a base k n

/-- The suffixes of a base that the search may end at. -/
def freeSuffixes (a : Allocator) (base : String) : Set Nat :=
  {k | 2 ≤ k ∧ a.isTaken (suffixed base k) = false}

theorem suffixed_injective (base : String) : Function.Injective (suffixed base) := by
  intro j k h
  have hdigits : Nat.toDigits 10 j = Nat.toDigits 10 k :=
    String.ofList_injective ((String.append_right_inj (base ++ "_")).mp h)
  have hvalue := congrArg (fun digits => Nat.ofDigitChars 10 digits 0) hdigits
  simpa only [Nat.ofDigitChars_ten_toDigits] using hvalue

/-- Among more suffixes than identifiers handed out, one is free. -/
theorem exists_free (a : Allocator) (base : String) :
    ∃ k ∈ List.range (a.taken.length + 1), a.isTaken (suffixed base (k + 2)) = false := by
  by_contra hnone
  simp only [not_exists, not_and, Bool.not_eq_false] at hnone
  have hnodup : ((List.range (a.taken.length + 1)).map fun k => suffixed base (k + 2)).Nodup :=
    List.nodup_range.map fun j k h => Nat.add_right_cancel (suffixed_injective base h)
  have hsubset : ((List.range (a.taken.length + 1)).map fun k => suffixed base (k + 2)) ⊆
      a.taken := by
    intro x hx
    obtain ⟨k, hk, rfl⟩ := List.mem_map.mp hx
    exact isTaken_eq_true.mp (hnone k hk)
  have hlength := (hnodup.subperm hsubset).length_le
  rw [List.length_map, List.length_range] at hlength
  omega

theorem isLeast_freeSuffix (a : Allocator) (base : String) :
    IsLeast (a.freeSuffixes base) (a.freeSuffix base) := by
  obtain ⟨k, hk, hfree⟩ := exists_free a base
  have hsome : ((List.range (a.taken.length + 1)).find?
      fun k => !a.isTaken (suffixed base (k + 2))).isSome = true := by
    rw [List.find?_isSome]
    exact ⟨k, hk, by rw [hfree]; rfl⟩
  obtain ⟨n, hn⟩ := Option.isSome_iff_exists.mp hsome
  have hend : a.freeSuffix base = n + 2 := by rw [freeSuffix, hn, Option.getD_some]
  rw [List.find?_range_eq_some] at hn
  obtain ⟨hfound, hbound, hbelow⟩ := hn
  rw [hend]
  constructor
  · exact ⟨by omega, by simpa using hfound⟩
  · rintro j ⟨htwo, hj⟩
    by_contra hlt
    have htaken := hbelow (j - 2) (by omega)
    rw [show j - 2 + 2 = j by omega, hj] at htaken
    cases htaken

/-- The search passes over what is taken and stops at what is free. -/
theorem search_of_taken (hle : k ≤ n) (hfree : a.isTaken (suffixed base n) = false)
    (htaken : ∀ j, k ≤ j → j < n → a.isTaken (suffixed base j) = true) : Search a base k n := by
  induction hle using Nat.decreasingInduction with
  | self => exact .free hfree
  | of_succ k hlt ih =>
    exact .next (htaken k le_rfl hlt) (ih fun j hj => htaken j (Nat.le_of_succ_le hj))

/-- The search for a suffix comes to an end. -/
theorem search_freeSuffix (a : Allocator) (base : String) :
    Search a base 2 (a.freeSuffix base) := by
  obtain ⟨⟨htwo, hfree⟩, hleast⟩ := isLeast_freeSuffix a base
  refine search_of_taken htwo hfree fun j hj hlt => ?_
  by_contra htaken
  exact absurd (hleast ⟨hj, Bool.eq_false_iff.mpr htaken⟩) (not_le.mpr hlt)

/-! ### One claim -/

/-- What a claim hands out for a name: its base if that is free, and otherwise the base with the
least suffix that is free, which is where the search ends. -/
inductive Grants (a : Allocator) (name : String) : String → Prop where
  | plain : a.isTaken (Identifier.base name) = false → Grants a name (Identifier.base name)
  | suffix {k : Nat} : a.isTaken (Identifier.base name) = true →
      Search a (Identifier.base name) 2 k → IsLeast (a.freeSuffixes (Identifier.base name)) k →
      Grants a name (suffixed (Identifier.base name) k)

theorem grants_fresh (a : Allocator) (name : String) : Grants a name (a.fresh name) := by
  rw [fresh]
  split
  · exact .suffix ‹_› (search_freeSuffix a _) (isLeast_freeSuffix a _)
  · exact .plain (Bool.eq_false_iff.mpr ‹_›)

theorem Grants.not_mem {name identifier : String} (h : Grants a name identifier) :
    identifier ∉ a.taken := by
  cases h with
  | plain hfree => exact isTaken_eq_false.mp hfree
  | suffix _ _ hleast => exact isTaken_eq_false.mp hleast.1.2

theorem Grants.isIdentifier {name identifier : String} (h : Grants a name identifier) :
    IsIdentifier identifier.toList := by
  cases h with
  | plain => exact isIdentifier_base name
  | suffix => exact isIdentifier_suffixed (isIdentifier_base name) _

/-! ### A run of claims -/

/-- The allocator behind the claims of names, in order. -/
def afterAll (a : Allocator) : List String → Allocator
  | [] => a
  | name :: names => (a.claim name).2.afterAll names

theorem claimAll_append (a : Allocator) (names more : List String) :
    a.claimAll (names ++ more) = a.claimAll names ++ (a.afterAll names).claimAll more := by
  induction names generalizing a with
  | nil => rfl
  | cons name names ih => rw [List.cons_append, claimAll, ih, claimAll, afterAll, List.cons_append]

/-- A run of claims takes the identifiers that it hands out. -/
theorem taken_afterAll (a : Allocator) (names : List String) :
    (a.afterAll names).taken = (a.claimAll names).reverse ++ a.taken := by
  induction names generalizing a with
  | nil => rfl
  | cons name names ih => rw [afterAll, ih, claimAll, claim, List.reverse_cons, List.append_cons]

theorem isTaken_afterAll (names : List String) (x : String) :
    (afterAll {} names).isTaken x = true ↔ x ∈ claimAll {} names := by
  rw [isTaken_eq_true, taken_afterAll, List.append_nil, List.mem_reverse]

/-- The identifiers of a run are distinct from each other and from those taken before it. -/
theorem nodup_append_claimAll (a : Allocator) (names : List String) (h : a.taken.Nodup) :
    ((a.claimAll names).reverse ++ a.taken).Nodup := by
  induction names generalizing a with
  | nil => exact h
  | cons name names ih =>
    have hmore := ih (a.claim name).2 (List.nodup_cons.mpr ⟨(grants_fresh a name).not_mem, h⟩)
    rwa [claimAll, List.reverse_cons, ← List.append_cons]

theorem nodup_claimAll (names : List String) : (claimAll {} names).Nodup := by
  have hnodup := nodup_append_claimAll {} names List.nodup_nil
  rwa [List.append_nil, List.nodup_reverse] at hnodup

/-- **Claims of identifiers.** Behind any claims on a fresh allocator the identifiers handed out are
distinct and are those that are taken, and the next claim ends: it hands out the sanitized name if
that is free, and otherwise the first suffix of it that is free. What is handed out has the form of
identifiers and is left as it is by sanitizing. -/
theorem claimAll_grants (names : List String) (name : String) :
    (claimAll {} names).Nodup ∧
      (∀ x, (afterAll {} names).isTaken x = true ↔ x ∈ claimAll {} names) ∧
      ∃ identifier, claimAll {} (names ++ [name]) = claimAll {} names ++ [identifier] ∧
        Grants (afterAll {} names) name identifier ∧ IsIdentifier identifier.toList ∧
        sanitize identifier = identifier := by
  have hgrants := grants_fresh (afterAll {} names) name
  refine ⟨nodup_claimAll names, isTaken_afterAll names, _, claimAll_append {} names [name],
    hgrants, hgrants.isIdentifier, ?_⟩
  exact sanitize_of_isIdentifier hgrants.isIdentifier

example : claimAll {} ["tool", "tool_2", "Tool"] = ["tool", "tool_2", "tool_3"] := by
  decide +kernel

end Scriptorium.Identifier.Allocator
