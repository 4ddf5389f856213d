/-
Releases and their pre-releases: `1.0.py` beside `1.0-rc1.py`.

Both say the same numbers, so the names of their files decide. The point of `.py` stands above the
hyphen of an ending, and this is all that puts a release above its pre-releases: without `.py` its
name is a beginning of theirs, and where only one of the two has the `v`, that letter is compared
with the first digit of the other.
-/

import Scriptorium.Proofs.Catalog.Selection
import Scriptorium.Proofs.Catalog.VersionForm

namespace Scriptorium.Catalog

variable {c : Char} {s suffix : List Char} {marked marked' : Bool}

/-! ### Names of files -/

/-- The ending of scripts, if a name has it. -/
def endingOf (name : List Char) : List Char :=
  if ".py".toList <:+ name then ".py".toList else []

theorem scriptStem_append_endingOf (name : List Char) :
    scriptStem name ++ endingOf name = name := by
  rw [scriptStem, endingOf]
  split
  · rename_i h
    obtain ⟨front, hfront⟩ := h
    rw [Text.dropEnd?_eq_some_iff.mpr hfront.symm, Option.getD_some, hfront]
  · rename_i h
    have hdrop : Text.dropEnd? ".py".toList name = none := by
      rw [Option.eq_none_iff_forall_ne_some]
      exact fun front hfront => h ⟨front, (Text.dropEnd?_eq_some_iff.mp hfront).symm⟩
    rw [hdrop, Option.getD_none, List.append_nil]

/-- Where the numbers are the same, the names decide. -/
theorem older_iff_of_release_eq {a b : List Char} (h : release a = release b) :
    older a b = true ↔ lastName a < lastName b := by
  simp [older_iff, versionKey, Prod.Lex.toLex_lt_toLex, h]

/-- A common beginning is of no account. -/
theorem append_lt_append_iff {p t : List Char} : p ++ s < p ++ t ↔ s < t := by
  induction p with
  | nil => rfl
  | cons c p ih => simp [ih]

/-! ### First digits -/

/-- The digits of ASCII stand before the `v`, and all others behind it. -/
theorem lt_mark_iff (h : Text.isDecimalDigit c = true) : c < 'v' ↔ c.isDigit = true := by
  have hv : c < 'v' ↔ c.toNat < 0x76 := Iff.rfl
  rw [Text.isDecimalDigit] at h
  rw [hv]
  split at h
  · rw [Text.isDigit_iff] at h ⊢
    omega
  · rw [Text.isDigit_iff]
    omega

theorem mark_lt_iff (h : Text.isDecimalDigit c = true) : 'v' < c ↔ ¬c.isDigit = true := by
  have hne : c ≠ 'v' := by
    rintro rfl
    exact absurd h (by decide)
  rw [← lt_mark_iff h, not_lt]
  exact ⟨le_of_lt, fun hle => lt_of_le_of_ne hle hne.symm⟩

/-- With the same `v`, versions with one release stand as their endings do; otherwise the `v` is
compared with the first digit. -/
theorem version_lt_iff (hs : IsRelease s) (ending ending' : List Char) :
    mark marked' ++ s ++ ending' < mark marked ++ s ++ ending ↔
      if marked = marked' then ending' < ending
      else (marked = true ↔ s.head?.any Char.isDigit = true) := by
  split
  · rename_i heq
    rw [heq, append_lt_append_iff]
  · rename_i hne
    obtain ⟨c, t, rfl, hc⟩ := hs.head
    have hmark : c ≠ 'v' := by
      rintro rfl
      exact absurd hc (by decide)
    cases marked with
    | true =>
      obtain rfl : marked' = false := by simpa using hne
      simp [mark, List.cons_lt_cons_iff, lt_mark_iff hc, hmark]
    | false =>
      obtain rfl : marked' = true := by simpa using hne
      simp [mark, List.cons_lt_cons_iff, mark_lt_iff hc, hmark.symm]

/-! ### Pre-releases -/

theorem hyphen_lt_endingOf_iff (name : List Char) :
    '-' :: suffix < endingOf name ↔ ".py".toList <:+ name := by
  rw [endingOf]
  split
  · rename_i h
    exact iff_of_true (List.cons_lt_cons_iff.mpr (.inl (by decide))) h
  · rename_i h
    exact iff_of_false (List.not_lt_nil _) h

/-- **Releases and pre-releases.** Where both have the `v` or neither has it, a release displaces
its pre-release exactly if its file name ends with `.py`. Where one of them has the `v`, the release
does so exactly if the `v` is its own and the first digit is one of ASCII, or neither. -/
theorem displaces_preRelease_iff {a b : String} {directory : List Char} (hs : IsRelease s)
    (ha : versionDirectory? a.toList = some directory)
    (hb : versionDirectory? b.toList = some directory)
    (hrelease : stemOf a.toList = mark marked ++ s)
    (hpre : stemOf b.toList = mark marked' ++ s ++ '-' :: suffix) :
    (marked = marked' → (Displaces a b ↔ ".py".toList <:+ lastName a.toList)) ∧
      (marked ≠ marked' →
        (Displaces a b ↔ (marked = true ↔ s.head?.any Char.isDigit = true))) := by
  have hplain : stemOf a.toList = mark marked ++ s ++ [] := by rw [hrelease, List.append_nil]
  have hnumbers : release b.toList = release a.toList := by
    rw [release_eq, release_eq, parts_of_stemOf hs hplain (by simp), parts_of_stemOf hs hpre]
    rintro _ ⟨⟩
    rfl
  have hname : lastName a.toList = mark marked ++ s ++ endingOf (lastName a.toList) := by
    rw [← hrelease]
    exact (scriptStem_append_endingOf _).symm
  have hname' : lastName b.toList =
      mark marked' ++ s ++ '-' :: (suffix ++ endingOf (lastName b.toList)) := by
    rw [← List.cons_append, ← List.append_assoc, ← hpre]
    exact (scriptStem_append_endingOf _).symm
  have hnewer : Displaces a b ↔ lastName b.toList < lastName a.toList := by
    rw [displaces_iff ha hb, older_iff_of_release_eq hnumbers]
  rw [hname, hname', version_lt_iff hs] at hnewer
  constructor
  · intro heq
    rw [hnewer, if_pos heq, hyphen_lt_endingOf_iff]
  · intro hne
    rw [hnewer, if_neg hne]

theorem displaces_preRelease_iff_of_candidate :
    (IsRelease "1.0".toList ∧ stemOf "t/v1.0.py".toList = mark true ++ "1.0".toList ∧
        stemOf "t/v1.0-rc1.py".toList = mark true ++ "1.0".toList ++ '-' :: "rc1".toList) ∧
      Displaces "t/v1.0.py" "t/v1.0-rc1.py" := by
  have hform : IsRelease "1.0".toList := by decide
  have hrelease : stemOf "t/v1.0.py".toList = mark true ++ "1.0".toList := rfl
  have hpre : stemOf "t/v1.0-rc1.py".toList = mark true ++ "1.0".toList ++ '-' :: "rc1".toList :=
    rfl
  have hplace : versionDirectory? "t/v1.0.py".toList = some ['t'] := by decide
  have hplace' : versionDirectory? "t/v1.0-rc1.py".toList = some ['t'] := by decide
  have hdisplaces := displaces_preRelease_iff hform hplace hplace' hrelease hpre
  exact ⟨⟨hform, hrelease, hpre⟩, (hdisplaces.1 rfl).mpr ⟨"v1.0".toList, rfl⟩⟩

/-- A pre-release with the `v` is kept in place of a release without it. -/
theorem marked_preRelease_kept :
    IsRelease "1.0".toList ∧ stemOf "t/1.0.py".toList = mark false ++ "1.0".toList ∧
      stemOf "t/v1.0-rc1.py".toList = mark true ++ "1.0".toList ++ '-' :: "rc1".toList ∧
      versionDirectory? "t/1.0.py".toList = some ['t'] ∧
      versionDirectory? "t/v1.0-rc1.py".toList = some ['t'] ∧
      (build {} "1" "now" [Report.mk "t/1.0.py" "t" {} [] [],
        Report.mk "t/v1.0-rc1.py" "t" {} [] []]).scripts.map Record.path = ["t/v1.0-rc1.py"] := by
  decide +kernel

end Scriptorium.Catalog
