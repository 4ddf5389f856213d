/-
The form of versions: numbers between points, which may have a `v` before them and an ending behind.

None of the characters of such numbers cuts a path or a version, so a version is taken apart where
it was put together: into its directory and its file name, and that into its numbers.
-/

import Scriptorium.Proofs.Catalog.VersionOrder
import Scriptorium.Proofs.Text.CharacterClass
import Scriptorium.Proofs.Text.Line

namespace Scriptorium.Catalog

variable {c : Char} {s ending name path : List Char} {marked : Bool}

/-! ### Numbers between points -/

/-- A number as it is written: decimal digits of any script, at least one. -/
structure IsNumber (part : List Char) : Prop where
  ne_nil : part ≠ []
  digits : ∀ c ∈ part, Text.isDecimalDigit c = true

theorem isNumber_iff {part : List Char} :
    (!part.isEmpty && part.all Text.isDecimalDigit) = true ↔ IsNumber part := by
  rw [Bool.and_eq_true, Bool.not_eq_true', List.isEmpty_eq_false_iff, List.all_eq_true]
  constructor
  · rintro ⟨hne, hdigits⟩
    exact ⟨hne, hdigits⟩
  · intro h
    exact ⟨h.ne_nil, h.digits⟩

instance (part : List Char) : Decidable (IsNumber part) :=
  decidable_of_iff _ isNumber_iff

/-- Numbers between points. -/
def IsRelease (s : List Char) : Prop :=
  ∀ part ∈ Text.splitAt '.' s, IsNumber part

instance (s : List Char) : Decidable (IsRelease s) :=
  inferInstanceAs (Decidable (∀ part ∈ Text.splitAt '.' s, IsNumber part))

/-- What numbers between points are written with. -/
def isReleaseChar (c : Char) : Bool :=
  c == '.' || Text.isDecimalDigit c

theorem IsRelease.isReleaseChar (h : IsRelease s) (hc : c ∈ s) : isReleaseChar c = true := by
  rw [Catalog.isReleaseChar, Bool.or_eq_true, beq_iff_eq]
  obtain hpoint | ⟨part, hpart, hc⟩ := Text.mem_splitAt hc
  · exact .inl hpoint
  · exact .inr ((h part hpart).digits c hc)

theorem IsRelease.not_mem (h : IsRelease s) (hc : Catalog.isReleaseChar c = false) : c ∉ s := by
  intro hmem
  rw [h.isReleaseChar hmem] at hc
  cases hc

/-- A release begins with a digit. -/
theorem IsRelease.head (h : IsRelease s) : ∃ c t, s = c :: t ∧ Text.isDecimalDigit c = true := by
  cases s with
  | nil => exact absurd rfl (h [] (List.mem_singleton_self [])).ne_nil
  | cons c t =>
    refine ⟨c, t, rfl, ?_⟩
    have hchar := h.isReleaseChar (List.mem_cons_self : c ∈ c :: t)
    rw [Catalog.isReleaseChar, Bool.or_eq_true, beq_iff_eq] at hchar
    refine hchar.resolve_left fun hpoint => ?_
    have hfirst : [] ∈ Text.splitAt '.' (c :: t) := by
      rw [Text.splitAt, if_pos hpoint]
      exact List.mem_cons_self
    exact (h [] hfirst).ne_nil rfl

theorem isRelease_intercalate {parts : List (List Char)} (hne : parts ≠ [])
    (h : ∀ part ∈ parts, IsNumber part) :
    IsRelease (['.'].intercalate parts) ∧
      Text.splitAt '.' (['.'].intercalate parts) = parts := by
  have hparts : Text.splitAt '.' (['.'].intercalate parts) = parts := by
    refine Text.splitAt_intercalate hne fun part hpart hpoint => ?_
    exact absurd ((h part hpart).digits '.' hpoint) (by decide)
  rw [IsRelease, hparts]
  exact ⟨h, rfl⟩

/-! ### Versions -/

/-- The `v` that may stand before a version. -/
def mark (marked : Bool) : List Char :=
  if marked then ['v'] else []

theorem IsRelease.dropMark (h : IsRelease s) (marked : Bool) (ending : List Char) :
    dropMark (mark marked ++ s ++ ending) = s ++ ending := by
  cases marked with
  | true => rfl
  | false =>
    obtain ⟨c, t, rfl, hc⟩ := h.head
    have hne : c ≠ 'v' := by
      rintro rfl
      exact absurd hc (by decide)
    unfold Catalog.dropMark
    split
    · rename_i heq
      exact absurd (List.cons.inj heq).1 hne
    · rfl

theorem IsRelease.not_isEndingMark (h : IsRelease s) :
    ∀ c ∈ s, (!isEndingMark c) = true := by
  intro c hc
  have hhyphen : c ≠ '-' := fun heq => h.not_mem (c := '-') (by decide) (heq ▸ hc)
  have hplus : c ≠ '+' := fun heq => h.not_mem (c := '+') (by decide) (heq ▸ hc)
  simp [isEndingMark, hhyphen, hplus]

/-- The numbers of a version are those of its release. -/
theorem IsRelease.releaseParts (h : IsRelease s)
    (hending : ∀ c ∈ ending.head?, isEndingMark c = true) :
    releaseParts (s ++ ending) = Text.splitAt '.' s := by
  have hstop : ∀ c ∈ ending.head?, (!isEndingMark c) = false := by simpa using hending
  rw [Catalog.releaseParts, Text.takeWhile_append h.not_isEndingMark hstop]

/-- What has the form of a version is a release with an ending. -/
theorem IsRelease.isVersion (h : IsRelease s) (marked : Bool)
    (hending : ∀ c ∈ ending.head?, isEndingMark c = true) :
    isVersion (mark marked ++ s ++ ending) = validEnding ending := by
  have hstop : ∀ c ∈ ending.head?, (!isEndingMark c) = false := by simpa using hending
  have hparts : (Text.splitAt '.' s).all
      (fun part => !part.isEmpty && part.all Text.isDecimalDigit) = true := by
    rw [List.all_eq_true]
    exact fun part hpart => isNumber_iff.mpr (h part hpart)
  rw [Catalog.isVersion, h.dropMark, h.releaseParts hending, hparts, Bool.true_and,
    Text.dropWhile_append h.not_isEndingMark hstop]

theorem isNumber_of_isVersion {stem part : List Char} (h : isVersion stem = true)
    (hpart : part ∈ releaseParts (dropMark stem)) : IsNumber part := by
  rw [isVersion, Bool.and_eq_true, List.all_eq_true] at h
  exact isNumber_iff.mp (h.1 part hpart)

/-! ### Paths -/

/-- The directory of a path, if one is named. -/
def directoryOf (path : List Char) : Option (List Char) :=
  (Text.cutAtLast '/' path).map Prod.fst

/-- The name of the file of a path without the ending of scripts. -/
def stemOf (path : List Char) : List Char :=
  scriptStem (lastName path)

/-- The numbers of a version as they are written. -/
def parts (path : List Char) : List (List Char) :=
  releaseParts (dropMark (stemOf path))

theorem release_eq (path : List Char) : release path = (parts path).map releaseNumber := rfl

/-- The numbers of a version are those of its release, with `v` or without it. -/
theorem parts_of_stemOf (hs : IsRelease s) (h : stemOf path = mark marked ++ s ++ ending)
    (hending : ∀ c ∈ ending.head?, isEndingMark c = true) :
    parts path = Text.splitAt '.' s := by
  rw [parts, h, hs.dropMark, hs.releaseParts hending]

theorem versionDirectory?_eq_some_iff {directory : List Char} :
    versionDirectory? path = some directory ↔
      directoryOf path = some directory ∧ isVersion (stemOf path) = true := by
  cases hcut : Text.cutAtLast '/' path with
  | none => simp [versionDirectory?, directoryOf, hcut]
  | some cut => simp [versionDirectory?, directoryOf, stemOf, lastName, hcut, and_comm]

/-- A release does not end like a script. -/
theorem IsRelease.scriptStem (h : IsRelease s) : scriptStem s = s := by
  have hdrop : Text.dropEnd? ".py".toList s = none := by
    rw [Option.eq_none_iff_forall_ne_some]
    intro stem hstem
    rw [Text.dropEnd?_eq_some_iff] at hstem
    exact h.not_mem (c := 'y') (by decide) (by simp [hstem])
  rw [Catalog.scriptStem, hdrop, Option.getD_none]

/-- The path of a file in a directory. -/
def pathIn (directory : Option (List Char)) (name : List Char) : List Char :=
  match directory with
  | none => name
  | some directory => directory ++ '/' :: name

/-- A path is taken apart where its file name was put behind the directory. -/
theorem cut_pathIn (directory : Option (List Char)) (h : '/' ∉ name) :
    directoryOf (pathIn directory name) = directory ∧
      lastName (pathIn directory name) = name := by
  cases directory with
  | none =>
    have hcut : Text.cutAtLast '/' name = none := Text.cutAtLast_eq_none_iff.mpr h
    simp [pathIn, directoryOf, lastName, hcut]
  | some directory =>
    have hcut : Text.cutAtLast '/' (directory ++ '/' :: name) = some (directory, name) :=
      Text.cutAtLast_eq_some_iff.mpr ⟨rfl, h⟩
    simp [pathIn, directoryOf, lastName, hcut]

end Scriptorium.Catalog
