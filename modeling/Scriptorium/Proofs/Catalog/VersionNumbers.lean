/-
The numbers of versions: what a version says, against what is compared of it.

A number that is written in the digits of ASCII and has no more than sixty-four bits is compared by
its value, and any other as zero (`releaseNumber_eq_iff`). No number is ever taken for a greater
one, so a version whose numbers are all readable displaces every version of lesser numbers; and a
version that has an unreadable number is overtaken by one with zero in its place.
-/

import Scriptorium.Proofs.Catalog.Selection
import Scriptorium.Proofs.Catalog.VersionForm

namespace Scriptorium.Catalog

variable {part a b : List Char}

/-! ### Values -/

/-- The value of a decimal digit: in every script the ten digits stand in a row. -/
def digitValue (c : Char) : Nat :=
  if c.toNat < 0x80 then c.toNat - 0x30
  else
    match Text.decimalDigitRanges.find? fun range => range.1 ≤ c.toNat && c.toNat ≤ range.2 with
    | some range => (c.toNat - range.1) % 10
    | none => 0

/-- The number that decimal digits denote. -/
def numberOf (part : List Char) : Nat :=
  part.foldl (fun n c => n * 10 + digitValue c) 0

/-- Whether a number is compared by its value. -/
def IsReadable (part : List Char) : Prop :=
  numberOf part = 0 ∨ part.all Char.isDigit = true ∧ numberOf part < 0x10000000000000000

instance (part : List Char) : Decidable (IsReadable part) :=
  inferInstanceAs (Decidable (_ ∨ _))

theorem ofDigits_eq_numberOf (h : part.all Char.isDigit = true) :
    Text.ofDigits 10 part = numberOf part := by
  refine List.foldl_ext _ _ 0 fun n c hc => ?_
  have hdigit := List.all_eq_true.mp h c hc
  have hascii : c.toNat < 0x80 := by
    rw [Text.isDigit_iff] at hdigit
    omega
  rw [Text.hexValue?, if_pos hdigit, Option.getD_some, digitValue, if_pos hascii]

theorem releaseNumber_eq (part : List Char) :
    releaseNumber part =
      if part.all Char.isDigit = true ∧ numberOf part < 0x10000000000000000 then numberOf part
      else 0 := by
  cases part with
  | nil => rfl
  | cons c part =>
    by_cases hdigits : (c :: part).all Char.isDigit = true
    · simp only [releaseNumber, ofDigits_eq_numberOf hdigits, hdigits, List.isEmpty_cons,
        Bool.not_false, Bool.true_and, decide_eq_true_eq, true_and]
    · simp only [releaseNumber, hdigits, Bool.and_false, Bool.false_and, Bool.false_eq_true,
        false_and, if_false]

theorem releaseNumber_le (part : List Char) : releaseNumber part ≤ numberOf part := by
  rw [releaseNumber_eq]
  split
  · exact le_refl _
  · exact Nat.zero_le _

theorem releaseNumber_eq_iff (part : List Char) :
    releaseNumber part = numberOf part ↔ IsReadable part := by
  rw [releaseNumber_eq, IsReadable]
  split
  · rename_i h
    exact ⟨fun _ => .inr h, fun _ => rfl⟩
  · rename_i h
    exact ⟨fun hzero => .inl hzero.symm, fun hread => (hread.resolve_right h).symm⟩

theorem releaseNumber_of_not_isReadable (h : ¬IsReadable part) : releaseNumber part = 0 := by
  rw [releaseNumber_eq, if_neg fun hread => h (.inr hread)]

/-! ### Versions -/

/-- The numbers that a version says. -/
def numbers (path : List Char) : List Nat :=
  (parts path).map numberOf

/-- Numbers that are not greater, one by one, do not stand behind in the order of lists. -/
theorem map_le_map {f g : List Char → Nat} {l : List (List Char)} (h : ∀ x ∈ l, f x ≤ g x) :
    l.map f ≤ l.map g := by
  induction l with
  | nil => exact le_refl _
  | cons x l ih =>
    rw [List.forall_mem_cons] at h
    rw [← not_lt, List.map_cons, List.map_cons, List.cons_lt_cons_iff]
    rintro (hlt | ⟨_, hlt⟩)
    · exact absurd hlt (not_lt.mpr h.1)
    · exact absurd hlt (not_lt.mpr (ih h.2))

theorem older_of_release_lt (h : release b < release a) : older b a = true := by
  rw [older_iff, versionKey, versionKey, Prod.Lex.toLex_lt_toLex]
  exact .inl h

theorem not_older_of_release_lt (h : release a < release b) : older b a = false := by
  rw [Bool.eq_false_iff]
  intro holder
  exact lt_asymm (older_iff.mp holder) (older_iff.mp (older_of_release_lt h))

theorem older_of_numbers_lt (hread : ∀ part ∈ parts a, IsReadable part)
    (h : numbers b < numbers a) : older b a = true := by
  have ha : release a = numbers a :=
    List.map_congr_left fun part hpart => (releaseNumber_eq_iff part).mpr (hread part hpart)
  refine older_of_release_lt ?_
  calc release b ≤ numbers b := map_le_map fun part _ => releaseNumber_le part
    _ < numbers a := h
    _ = release a := ha.symm

/-! ### Overtaking -/

/-- In every directory there is a version with the given numbers. -/
theorem exists_path_of_parts {pieces : List (List Char)} (hne : pieces ≠ [])
    (h : ∀ part ∈ pieces, IsNumber part) (directory : Option (List Char)) :
    ∃ b, directoryOf b = directory ∧ isVersion (stemOf b) = true ∧ parts b = pieces := by
  obtain ⟨hrelease, hpieces⟩ := isRelease_intercalate hne h
  obtain ⟨hdirectory, hname⟩ := cut_pathIn directory (hrelease.not_mem (by decide))
  have hstem : stemOf (pathIn directory (['.'].intercalate pieces)) =
      mark false ++ ['.'].intercalate pieces ++ [] := by
    rw [stemOf, hname, hrelease.scriptStem, List.append_nil]
    rfl
  refine ⟨_, hdirectory, ?_, ?_⟩
  · rw [hstem, hrelease.isVersion false (by simp)]
    rfl
  · rw [parts_of_stemOf hrelease hstem (by simp), hpieces]

/-- A version with an unreadable number is overtaken by one that has zero in its place. -/
theorem exists_overtaking (ha : isVersion (stemOf a) = true) (hpart : part ∈ parts a)
    (hread : ¬IsReadable part) :
    ∃ b, directoryOf b = directoryOf a ∧ isVersion (stemOf b) = true ∧ numbers b < numbers a ∧
      older b a = false := by
  obtain ⟨front, back, hparts⟩ := List.append_of_mem hpart
  have hnumbers : ∀ p ∈ front ++ ['0'] :: (back ++ [['1']]), IsNumber p := by
    have hold : ∀ p ∈ front ++ part :: back, IsNumber p := by
      rw [← hparts]
      exact fun p hp => isNumber_of_isVersion ha hp
    simp only [List.forall_mem_append, List.forall_mem_cons] at hold ⊢
    exact ⟨hold.1, by decide, hold.2.2, by decide, by simp⟩
  obtain ⟨b, hdirectory, hversion, hb⟩ :=
    exists_path_of_parts (by simp) hnumbers (directoryOf a)
  refine ⟨b, hdirectory, hversion, ?_, ?_⟩
  · rw [numbers, numbers, hb, hparts, List.map_append, List.map_append]
    refine List.append_left_lt (List.cons_lt_cons_iff.mpr (.inl ?_))
    exact Nat.pos_of_ne_zero fun hzero => hread (.inl hzero)
  · have hlonger : release b = release a ++ [1] := by
      have hzero : releaseNumber ['0'] = 0 := by decide
      have hone : releaseNumber ['1'] = 1 := by decide
      simp [release_eq, hb, hparts, hzero, hone, releaseNumber_of_not_isReadable hread]
    refine not_older_of_release_lt ?_
    calc release a = release a ++ [] := (List.append_nil _).symm
      _ < release a ++ [1] := List.append_left_lt (List.nil_lt_cons 1 [])
      _ = release b := hlonger.symm

/-! ### The order -/

/-- **Versions in numeric order.** A version is newer than all versions in its directory that say
lesser numbers, and displaces them from every catalog, exactly if all of its numbers are readable:
each is zero or is written in ASCII digits and has no more than sixty-four bits. -/
theorem newer_of_numbers_iff {a : String} (ha : isVersion (stemOf a.toList) = true) :
    (∀ b : String, isVersion (stemOf b.toList) = true →
        directoryOf b.toList = directoryOf a.toList → numbers b.toList < numbers a.toList →
        older b.toList a.toList = true ∧ (directoryOf a.toList ≠ none → Displaces a b)) ↔
      ∀ part ∈ parts a.toList, IsReadable part := by
  constructor
  · intro h part hpart
    by_contra hread
    obtain ⟨b, hdirectory, hb, hless, holder⟩ := exists_overtaking ha hpart hread
    have hnewer := (h (String.ofList b) (by simpa using hb) (by simpa using hdirectory)
      (by simpa using hless)).1
    rw [String.toList_ofList, holder] at hnewer
    cases hnewer
  · intro hread b hb hdirectory hless
    have holder := older_of_numbers_lt hread hless
    refine ⟨holder, fun hnamed => ?_⟩
    obtain ⟨directory, hnamed⟩ := Option.ne_none_iff_exists'.mp hnamed
    have hplace := versionDirectory?_eq_some_iff.mpr ⟨hnamed, ha⟩
    have hplace' := versionDirectory?_eq_some_iff.mpr ⟨hdirectory.trans hnamed, hb⟩
    exact (displaces_iff hplace hplace').mpr holder

theorem newer_of_numbers_iff_of_tenth :
    isVersion (stemOf "t/v0.10.py".toList) = true ∧ Displaces "t/v0.10.py" "t/0.9.1-rc1.py" := by
  have hversion : isVersion (stemOf "t/v0.10.py".toList) = true := rfl
  have hread : ∀ part ∈ parts "t/v0.10.py".toList, IsReadable part := by decide
  have hless : numbers "t/0.9.1-rc1.py".toList < numbers "t/v0.10.py".toList := by decide
  have hnewer := (newer_of_numbers_iff hversion).mpr hread "t/0.9.1-rc1.py" rfl rfl hless
  refine ⟨hversion, hnewer.2 ?_⟩
  intro hnone
  cases hnone

/-- The version at `a` says greater numbers than that at `b` beside it, but is not newer, and a
catalog of both keeps the other. -/
def IsPassedOver (a b : String) : Prop :=
  isVersion (stemOf a.toList) = true ∧ isVersion (stemOf b.toList) = true ∧
    directoryOf b.toList = directoryOf a.toList ∧ numbers b.toList < numbers a.toList ∧
    older b.toList a.toList = false ∧
    (build {} "1" "now"
      [Report.mk a "" {} [] [], Report.mk b "" {} [] []]).scripts.map Record.path = [b]

instance (a b : String) : Decidable (IsPassedOver a b) :=
  inferInstanceAs (Decidable (_ ∧ _))

/-- A number of more than sixty-four bits, and a two that is not an ASCII digit, count as zero. -/
theorem isPassedOver_of_unreadable :
    IsPassedOver "t/18446744073709551616.py" "t/1.py" ∧ IsPassedOver "t/٢.py" "t/1.py" := by
  decide +kernel

end Scriptorium.Catalog
