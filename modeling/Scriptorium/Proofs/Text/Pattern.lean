/-
Patterns of texts, with the preferences of a search by backtracking.

The ways in which a pattern matches the beginning of a text are listed in order of preference
(`Pattern.ways`). A search takes the first place of the text at which there is a way, and there the
preferred one (`Pattern.search`). A text in front of a pattern has no choice (`first_text_seq`), so
that the ways of a pattern can be followed from its beginning.
-/

import Mathlib.Data.List.Basic
import Scriptorium.Text.Line

namespace Scriptorium.Text

/-- Patterns of texts. -/
inductive Pattern where
  /-- A text as it is. -/
  | text (t : List Char)
  /-- What a pattern matches or nothing, preferably the first. -/
  | optional (p : Pattern)
  /-- Any text, preferably a shorter one. -/
  | anyText
  /-- What a pattern matches, which is captured. -/
  | capture (p : Pattern)
  | seq (p q : Pattern)
deriving Repr

/-- A way in which a pattern matches the beginning of a text. -/
structure Match where
  matched : List Char
  captured : Option (List Char) := none
  rest : List Char
deriving DecidableEq, Repr

/-- A match behind another. -/
def Match.behind (m n : Match) : Match :=
  ⟨m.matched ++ n.matched, m.captured.or n.captured, n.rest⟩

/-- The ways to cut a text in two, those with a shorter beginning first. -/
def cuts : List Char → List (List Char × List Char)
  | [] => [([], [])]
  | c :: s => ([], c :: s) :: (cuts s).map fun cut => (c :: cut.1, cut.2)

namespace Pattern

/-- The ways in which a pattern matches the beginning of a text, in order of preference. -/
def ways : Pattern → List Char → List Match
  | text t, s => (dropStart? t s).toList.map fun rest => { matched := t, rest }
  | optional p, s => p.ways s ++ [{ matched := [], rest := s }]
  | anyText, s => (cuts s).map fun cut => { matched := cut.1, rest := cut.2 }
  | capture p, s => (p.ways s).map fun m => { m with captured := some m.matched }
  | seq p q, s => (p.ways s).flatMap fun m => (q.ways m.rest).map m.behind

/-- The preferred match at the beginning of a text. -/
def first (p : Pattern) (s : List Char) : Option Match :=
  (p.ways s).head?

/-- The preferred match at the first place of a text at which there is one. -/
def search (p : Pattern) : List Char → Option Match
  | [] => p.first []
  | c :: s => (p.first (c :: s)).or (p.search s)

variable {p q : Pattern} {t s : List Char}

/-- Parts are matched one behind the other, with another way of the first part where the second
matches nothing behind it. -/
theorem first_seq (p q : Pattern) (s : List Char) :
    (seq p q).first s = (p.ways s).findSome? fun m => (q.first m.rest).map m.behind := by
  simp only [first, ways, List.head?_flatMap, List.head?_map]

theorem first_text_seq (t : List Char) (q : Pattern) (s : List Char) :
    (seq (text t) q).first s =
      (dropStart? t s).bind fun rest => (q.first rest).map (Match.behind ⟨t, none, rest⟩) := by
  rw [first_seq, ways]
  cases dropStart? t s with
  | none => rfl
  | some rest => simp

theorem first_optional_seq (p q : Pattern) (s : List Char) :
    (seq (optional p) q).first s = ((seq p q).first s).or (q.first s) := by
  rw [first_seq, first_seq, ways, List.findSome?_append]
  cases hq : q.first s with
  | none => simp [hq]
  | some m => simp [hq, Match.behind]

/-- What a text in front of a pattern captures is what the pattern does. -/
theorem map_captured_text_seq (t : List Char) (q : Pattern) (s : List Char) :
    ((seq (text t) q).first s).map Match.captured =
      (dropStart? t s).bind fun rest => (q.first rest).map Match.captured := by
  rw [first_text_seq, Option.map_bind]
  congr 1
  funext rest
  rw [Function.comp_apply, Option.map_map]
  rfl

end Pattern

end Scriptorium.Text
