/-
How far a value extends: what is read of a text does not depend on where the text ends behind it.

Readers look ahead, to find out whether a numeral or a word goes on, whether three quotation marks
open a string, or whether another piece of a string follows. When one succeeds, it has taken a
beginning of the text, and it takes the same beginning wherever the rest is cut off (`Takes`). This
is said of every reader in turn, and of the whole reader by induction on its run.
-/

import Scriptorium.Proofs.Literal.Numeral
import Scriptorium.Proofs.Literal.Quoted
import Scriptorium.Proofs.Literal.Step

namespace Scriptorium.Literal

open Text (isDigitOf isWordChar)

variable {α β : Type} {s rest : List Char}

/-! ### Stretches of text -/

/-- `read` takes a beginning of `s` as `v`, and takes the same wherever the rest is cut off. -/
def Takes (read : List Char → Except Fault (α × List Char)) (s : List Char) (v : α)
    (rest : List Char) : Prop :=
  ∃ t, s = t ++ rest ∧ ∀ u, u <+: rest → read (t ++ u) = .ok (v, u)

variable {read : List Char → Except Fault (α × List Char)}
  {read' : List Char → Except Fault (β × List Char)} {v : α} {w : β}

theorem Takes.isSuffix (h : Takes read s v rest) : rest <:+ s := by
  obtain ⟨t, rfl, _⟩ := h
  exact List.suffix_append t rest

/-- Of two readers, one behind the other, each takes its part. -/
theorem Takes.behind {middle : List Char} (h : Takes read s v middle)
    (h' : Takes read' middle w rest) :
    ∃ t, s = t ++ rest ∧ ∀ u, u <+: rest →
      ∃ m, read (t ++ u) = .ok (v, m) ∧ read' m = .ok (w, u) := by
  obtain ⟨t, rfl, ht⟩ := h
  obtain ⟨t', rfl, ht'⟩ := h'
  refine ⟨t ++ t', by simp, fun u hu => ?_⟩
  have hm := (List.prefix_append_right_inj t').mpr hu
  refine ⟨t' ++ u, ?_, ht' u hu⟩
  rw [List.append_assoc, ht _ hm]

/-- A reader that takes nothing from nothing takes the first character. -/
theorem Takes.exists_cons {c : Char} (h : Takes read (c :: s) v rest)
    (hnil : ∀ found, read [] ≠ .ok found) :
    ∃ t, s = t ++ rest ∧ ∀ u, u <+: rest → t ++ u <+: s ∧ read (c :: (t ++ u)) = .ok (v, u) := by
  obtain ⟨t, hs, ht⟩ := h
  cases t with
  | nil => exact absurd (ht [] List.nil_prefix) (hnil _)
  | cons a t =>
    obtain ⟨rfl, rfl⟩ := List.cons.inj hs
    exact ⟨t, rfl, fun u hu => ⟨(List.prefix_append_right_inj t).mpr hu, ht u hu⟩⟩

/-- A change of the value does not change what is taken. -/
theorem Takes.map (h : Takes read s v rest) (f : α → β) :
    Takes (fun s => (read s).map fun (v, rest) => (f v, rest)) s (f v) rest := by
  obtain ⟨t, rfl, ht⟩ := h
  refine ⟨t, rfl, fun u hu => ?_⟩
  simp only [ht u hu]
  rfl

/-- Trivia in front of a value may be taken with it. -/
theorem Takes.behind_trivia (h : Takes read (skipTrivia s) v rest) (hne : skipTrivia s ≠ []) :
    Takes (fun s => read (skipTrivia s)) s v rest := by
  obtain ⟨x, hx, hs⟩ := exists_trivia_append hne
  obtain ⟨t, ht, hread⟩ := h
  refine ⟨x ++ t, ?_, fun u hu => ?_⟩
  · rw [List.append_assoc, ← ht, ← hs]
  · have htext : t ++ u <+: skipTrivia s := by
      rw [ht]
      exact (List.prefix_append_right_inj t).mpr hu
    simp only [List.append_assoc, skipTrivia_append_of_isPrefix hx htext, hread u hu]

/-- A character may be taken with what stands behind it, and with the trivia in front of it. -/
theorem Takes.behind_char {read' : List Char → Except Fault (α × List Char)} {c : Char}
    {tail : List Char} (h : Takes read tail v rest) (hs : skipTrivia s = c :: tail)
    (hstep : ∀ {t u}, skipTrivia t = c :: u → read' t = read u) : Takes read' s v rest := by
  obtain ⟨x, hx, hsplit⟩ := exists_trivia_append (s := s) (by simp [hs])
  obtain ⟨t, rfl, ht⟩ := h
  refine ⟨x ++ c :: t, ?_, fun u hu => ?_⟩
  · rw [hsplit, hs]
    simp
  · have hcut : c :: (t ++ u) <+: skipTrivia s := by
      rw [hs]
      exact (List.prefix_cons_inj c).mpr ((List.prefix_append_right_inj t).mpr hu)
    rw [List.append_assoc, List.cons_append, hstep (skipTrivia_append_of_isPrefix hx hcut), ht u hu]

/-! ### Numerals and words -/

theorem takes_readDecimal {v : Literal} (h : readDecimal s = .ok (v, rest)) :
    Takes readDecimal s v rest := by
  obtain ⟨whole, fraction, exponent, hsplit, hword, hvalue⟩ := exists_split_of_readDecimal h
  refine ⟨whole ++ (fraction ++ exponent), by simp [hsplit.eq], fun u hu => ?_⟩
  have hnone : u.takeWhile isWordChar = [] := by
    rw [Text.takeWhile_of_isPrefix (hword ▸ List.nil_prefix) hu, hword]
  rw [List.append_assoc, List.append_assoc, readDecimal_of_split (hsplit.of_isPrefix hu),
    if_neg (not_not_intro hnone), hvalue]
  rfl

theorem takes_readBased {base : Nat} {mark : List Char} {v : Literal}
    (h : readBased base mark s = .ok (v, rest)) : Takes (readBased base mark) s v rest := by
  obtain ⟨run, hrun, rfl, hvalue⟩ := basedOf_of_readBased h
  refine ⟨run, ?_, fun u hu => ?_⟩
  · rw [← hrun, List.takeWhile_append_dropWhile]
  · obtain ⟨htake, hdrop⟩ := Text.takeWhile_append_of_isPrefix hu
    rw [hrun] at htake hdrop
    simp only [readBased, htake, hdrop, hvalue]
    rfl

theorem takes_readNumeral {v : Literal} (h : readNumeral s = .ok (v, rest)) :
    Takes readNumeral s v rest := by
  by_cases hbase : ∃ c u base, s = '0' :: c :: u ∧ baseOf? c = some base
  · obtain ⟨c, u, base, rfl, hbase⟩ := hbase
    have hread (w : List Char) : readNumeral ('0' :: c :: w) = readBased base ['0', c] w := by
      simp only [readNumeral, hbase]
    rw [hread] at h
    obtain ⟨t, rfl, ht⟩ := takes_readBased h
    exact ⟨'0' :: c :: t, rfl, fun u hu => (hread (t ++ u)).trans (ht u hu)⟩
  · have hnone : ∀ c u, s = '0' :: c :: u → baseOf? c = none := by
      intro c u hs
      rw [Option.eq_none_iff_forall_ne_some]
      intro base hc
      exact hbase ⟨c, u, base, hs, hc⟩
    rw [readNumeral_of_unmarked hnone] at h
    obtain ⟨t, rfl, ht⟩ := takes_readDecimal h
    refine ⟨t, rfl, fun u hu => ?_⟩
    rw [readNumeral_of_unmarked, ht u hu]
    intro c w heq
    obtain ⟨x, hx⟩ := hu
    refine hnone c (w ++ x) ?_
    rw [← hx, ← List.append_assoc, heq]
    rfl

theorem takes_readWord {v : Literal} (h : readWord s = .ok (v, rest)) :
    Takes readWord s v rest := by
  obtain ⟨hword, rfl⟩ := constant?_of_readWord h
  refine ⟨s.takeWhile isWordChar, List.takeWhile_append_dropWhile.symm, fun u hu => ?_⟩
  obtain ⟨htake, hdrop⟩ := Text.takeWhile_append_of_isPrefix hu
  simp only [readWord, htake, hdrop, hword]

/-! ### Escapes and bodies -/

theorem readCodePoint_of_ok {digits : List Char} {count : Nat} {d : Char}
    (h : readCodePoint digits count s = .ok d) :
    ∃ e tail, s = e ++ tail ∧ e.length = count ∧
      ∀ u, readCodePoint digits count (e ++ u) = .ok d := by
  induction count generalizing digits s with
  | zero =>
    refine ⟨[], s, rfl, rfl, fun u => ?_⟩
    rw [readCodePoint_end] at h ⊢
    exact h
  | succ count ih =>
    cases s with
    | nil => cases h
    | cons c s =>
      rw [readCodePoint_cons] at h
      split at h
      · rename_i hc
        obtain ⟨e, tail, rfl, hlength, he⟩ := ih h
        refine ⟨c :: e, tail, rfl, congrArg Nat.succ hlength, fun u => ?_⟩
        rw [List.cons_append, readCodePoint_cons, if_pos hc, he]
      · cases h

/-- A short octal escape ends where it ended, wherever the text behind it is cut off. -/
theorem octalRun_of_isPrefix {limit : Nat} {t : List Char} (hrun : octalRun limit s <+: t)
    (ht : t <+: s) : octalRun limit t = octalRun limit s := by
  have hlength : (octalRun limit s).length ≤ limit :=
    (List.takeWhile_prefix _).length_le.trans (List.length_take_le limit s)
  exact Text.takeWhile_of_isPrefix (List.prefix_take_iff.mpr ⟨hrun, hlength⟩) (ht.take limit)

/-- The characters that belong to an escape decide what it stands for. -/
theorem readEscape_of_ok {c : Char} {text : List Char} {used : Nat}
    (h : readEscape c s = .ok (text, used)) :
    ∃ e tail, s = e ++ tail ∧ e.length = used ∧
      ∀ u, u <+: tail → readEscape c (e ++ u) = .ok (text, used) := by
  by_cases hfeed : c = '\n'
  · subst hfeed
    cases h
    exact ⟨[], s, rfl, rfl, fun u _ => rfl⟩
  by_cases hshort : c ∈ shortEscapes.map Prod.fst
  · obtain ⟨⟨a, d⟩, hmem, rfl⟩ := List.mem_map.mp hshort
    rw [readEscape_short hmem] at h
    cases h
    exact ⟨[], s, rfl, rfl, fun u _ => readEscape_short hmem u⟩
  by_cases hcode : c ∈ codeLetters.map Prod.fst
  · obtain ⟨⟨a, count⟩, hmem, rfl⟩ := List.mem_map.mp hcode
    rw [readEscape_codeLetter hmem] at h
    cases hread : readCodePoint [] count s with
    | error fault =>
      rw [hread] at h
      cases h
    | ok d =>
      rw [hread] at h
      cases h
      obtain ⟨e, tail, rfl, hlength, he⟩ := readCodePoint_of_ok hread
      exact ⟨e, tail, rfl, hlength, fun u _ => readEscape_code hmem (he u)⟩
  cases hdigit : isDigitOf 8 c with
  | false =>
    have hplain : isPlainEscape c := ⟨hfeed, hshort, hcode, hdigit⟩
    rw [readEscape_plain hplain] at h
    cases h
    exact ⟨[], s, rfl, rfl, fun u _ => readEscape_plain hplain u⟩
  | true =>
    rw [readEscape_octal hdigit] at h
    cases h
    obtain ⟨tail, hs⟩ : octalRun 2 s <+: s :=
      (List.takeWhile_prefix _).trans (List.take_prefix 2 s)
    refine ⟨octalRun 2 s, tail, hs.symm, rfl, fun u hu => ?_⟩
    have hcut : octalRun 2 s ++ u <+: s := by
      conv_rhs => rw [← hs]
      exact (List.prefix_append_right_inj _).mpr hu
    rw [readEscape_octal hdigit, octalRun_of_isPrefix (List.prefix_append _ u) hcut]

variable {form : PieceForm} {text : List Char}

theorem PieceForm.ending?_of_some (h : form.ending? s = some rest) :
    ∃ e, s = e ++ rest ∧ ∀ u, form.ending? (e ++ u) = some u := by
  unfold PieceForm.ending? at h ⊢
  split at h
  · split at h
    · rename_i a b tail
      split at h
      · cases h
        exact ⟨[a, b], rfl, fun u => by simp_all⟩
      · cases h
    · cases h
  · cases h
    exact ⟨[], rfl, fun u => by simp_all⟩

theorem PieceForm.ending?_of_isPrefix {t : List Char} (h : form.ending? s = none) (ht : t <+: s) :
    form.ending? t = none := by
  rw [Option.eq_none_iff_forall_ne_some]
  intro tail htail
  obtain ⟨e, rfl, he⟩ := form.ending?_of_some htail
  obtain ⟨u, rfl⟩ := ht
  rw [List.append_assoc, he] at h
  cases h

theorem takes_readBody {done : List Char} (h : readBody form done s = .ok (text, rest)) :
    Takes (readBody form done) s text rest := by
  fun_induction readBody form done s with
  | case1 => cases h
  | case2 done s tail hend =>
    cases h
    obtain ⟨e, rfl, he⟩ := form.ending?_of_some hend
    exact ⟨form.quote :: e, rfl, fun u _ => readBody_end (he u)⟩
  | case3 done s hend ih =>
    obtain ⟨t, rfl, ht⟩ := ih h
    refine ⟨form.quote :: t, rfl, fun u hu => ?_⟩
    have hcut := (List.prefix_append_right_inj t).mpr hu
    rw [List.cons_append, readBody_quote (form.ending?_of_isPrefix hend hcut), ht u hu]
  | case4 => cases h
  | case5 => cases h
  | case6 done d s hraw hslash hline ih =>
    obtain ⟨t, rfl, ht⟩ := ih h
    refine ⟨'\\' :: d :: t, rfl, fun u hu => ?_⟩
    rw [List.cons_append, List.cons_append, readBody_raw hslash hraw, ht u hu]
  | case7 => cases h
  | case8 done d s hraw piece used hescape hslash hline ih =>
    obtain ⟨e, tail, rfl, rfl, he⟩ := readEscape_of_ok hescape
    rw [List.drop_left] at h ih
    obtain ⟨t, rfl, ht⟩ := ih h
    refine ⟨'\\' :: d :: (e ++ t), by simp, fun u hu => ?_⟩
    have hcut := (List.prefix_append_right_inj t).mpr hu
    rw [List.cons_append, List.cons_append, List.append_assoc,
      readBody_escape hslash (by simpa using hraw) (he _ hcut), List.drop_left, ht u hu]
  | case9 done c s hquote hline hslash ih =>
    obtain ⟨t, rfl, ht⟩ := ih h
    refine ⟨c :: t, rfl, fun u hu => ?_⟩
    have htriple : c = '\n' → form.triple = true := by
      intro hc
      by_contra hnot
      exact hline ⟨hc, by simpa using hnot⟩
    rw [List.cons_append, readBody_plain hquote hslash htriple, ht u hu]

/-! ### Pieces -/

theorem readForm_cons (raw : Bool) (q : Char) (s : List Char) :
    readForm raw (q :: s) =
      if [q, q] <+: s then .ok (⟨raw, q, true⟩, s.drop 2) else .ok (⟨raw, q, false⟩, s) := by
  match s with
  | [] => simp [readForm]
  | [a] => simp [readForm]
  | a :: b :: s => simp [readForm, List.cons_prefix_cons, eq_comm]

theorem takes_readForm {raw : Bool} (h : readForm raw s = .ok (form, rest)) :
    Takes (readForm raw) s form rest := by
  cases s with
  | nil => cases h
  | cons q s =>
    rw [readForm_cons] at h
    split at h
    · rename_i hmarks
      obtain ⟨tail, rfl⟩ := hmarks
      cases h
      exact ⟨[q, q, q], rfl, fun u _ => by simp [readForm]⟩
    · rename_i hmarks
      cases h
      refine ⟨[q], rfl, fun u hu => ?_⟩
      rw [List.singleton_append, readForm_cons, if_neg fun hcut => hmarks (hcut.trans hu)]

theorem takes_readPiece (h : readPiece s = .ok (text, rest)) : Takes readPiece s text rest := by
  simp only [readPiece] at h
  split at h
  · rename_i hmark
    split at h
    · cases h
    · rename_i form body hform
      obtain ⟨t, htext, ht⟩ := (takes_readForm hform).behind (takes_readBody h)
      refine ⟨s.takeWhile Char.isAlpha ++ t, ?_, fun u hu => ?_⟩
      · rw [List.append_assoc, ← htext, List.takeWhile_append_dropWhile]
      · have hcut : t ++ u <+: s.dropWhile Char.isAlpha := by
          rw [htext]
          exact (List.prefix_append_right_inj t).mpr hu
        obtain ⟨htake, hdrop⟩ := Text.takeWhile_append_of_isPrefix hcut
        obtain ⟨m, hreadForm, hreadBody⟩ := ht u hu
        simp only [List.append_assoc, readPiece, htake, hdrop, if_pos hmark, hreadForm, hreadBody]
  · cases h

/-- A piece begins with at most two letters before its quotation mark. -/
theorem atPiece_iff : atPiece s = true ↔ ∃ letters q tail, s = letters ++ q :: tail ∧
    (∀ c ∈ letters, c.isAlpha = true) ∧ letters.length ≤ 2 ∧ isQuote q = true := by
  constructor
  · intro h
    simp only [atPiece, Bool.and_eq_true, decide_eq_true_eq] at h
    obtain ⟨hlength, hhead⟩ := h
    obtain ⟨q, hq, hquote⟩ := (Option.any_eq_true _ _).mp hhead
    obtain ⟨tail, htail⟩ := List.head?_eq_some_iff.mp hq
    refine ⟨s.takeWhile Char.isAlpha, q, tail, ?_, List.all_eq_true.mp List.all_takeWhile,
      hlength, hquote⟩
    rw [← htail, List.takeWhile_append_dropWhile]
  · rintro ⟨letters, q, tail, rfl, hletters, hlength, hquote⟩
    have hstop : ∀ c ∈ (q :: tail).head?, c.isAlpha = false := by
      rintro c ⟨⟩
      exact isAlpha_eq_false_of_isQuote hquote
    simp [atPiece, Text.takeWhile_append hletters hstop, Text.dropWhile_append hletters hstop,
      hlength, hquote]

/-- A piece that begins in a beginning of a text begins in the text. -/
theorem atPiece_append_right (h : atPiece s = true) (u : List Char) : atPiece (s ++ u) = true := by
  obtain ⟨letters, q, tail, rfl, hletters⟩ := atPiece_iff.mp h
  exact atPiece_iff.mpr ⟨letters, q, tail ++ u, by simp, hletters⟩

theorem atPiece_of_isPrefix {t : List Char} (h : atPiece s = false) (ht : t <+: s) :
    atPiece t = false := by
  obtain ⟨u, rfl⟩ := ht
  rw [Bool.eq_false_iff] at h ⊢
  exact fun hpiece => h (atPiece_append_right hpiece u)

theorem dropWhile_ne_nil_of_readPiece {found : List Char × List Char}
    (h : readPiece s = .ok found) : s.dropWhile Char.isAlpha ≠ [] := by
  intro hnone
  simp only [readPiece, hnone, readForm] at h
  split at h <;> cases h

/-- If a piece is read where the text has been cut off, its quotation mark stands before the cut. -/
theorem atPiece_of_readPiece {t : List Char} {found : List Char × List Char}
    (h : atPiece s = true) (ht : t <+: s) (hread : readPiece t = .ok found) :
    atPiece t = true := by
  obtain ⟨letters, q, tail, rfl, hletters, hlength, hquote⟩ := atPiece_iff.mp h
  have hquoted := dropWhile_ne_nil_of_readPiece hread
  rw [ne_eq, List.dropWhile_eq_nil_iff] at hquoted
  rcases List.prefix_or_prefix_of_prefix ht (List.prefix_append letters (q :: tail)) with
    hshort | ⟨u, rfl⟩
  · exact absurd (fun c hc => hletters c (hshort.subset hc)) hquoted
  · rw [List.prefix_append_right_inj] at ht
    rcases List.prefix_cons_iff.mp ht with rfl | ⟨w, rfl, _⟩
    · rw [List.append_nil] at hquoted
      exact absurd hletters hquoted
    · exact atPiece_iff.mpr ⟨letters, q, w, rfl, hletters, hlength, hquote⟩

theorem isSolid_of_atPiece {c : Char} (h : atPiece (c :: s) = true) : isSolid c = true := by
  obtain ⟨letters, q, tail, heq, hletters, _, hquote⟩ := atPiece_iff.mp h
  cases letters with
  | nil =>
    obtain ⟨rfl, _⟩ := List.cons.inj heq
    rcases isQuote_iff.mp hquote with rfl | rfl <;> rfl
  | cons a letters =>
    obtain ⟨rfl, _⟩ := List.cons.inj heq
    exact isSolid_of_isWordChar (Text.isWordChar_of_isAlpha (hletters c List.mem_cons_self))

/-- No piece follows behind trivia that are cut off before the next piece. -/
theorem atPiece_skipTrivia_of_isPrefix {t : List Char} (h : atPiece (skipTrivia s) = false)
    (ht : t <+: s) : atPiece (skipTrivia t) = false := by
  rw [Bool.eq_false_iff] at h ⊢
  intro hpiece
  cases hskip : skipTrivia t with
  | nil =>
    rw [hskip] at hpiece
    cases hpiece
  | cons c w =>
    obtain ⟨x, hx, htx⟩ := exists_trivia_append (s := t) (by simp [hskip])
    obtain ⟨u, rfl⟩ := ht
    rw [hskip] at hpiece htx
    rw [htx, List.append_assoc, skipTrivia_append hx, List.cons_append,
      skipTrivia_of_solid (isSolid_of_atPiece hpiece)] at h
    exact h (atPiece_append_right hpiece u)

theorem exists_readPiece {done : List Char} {found : List Char × List Char}
    (h : readPieces done s = .ok found) : ∃ piece, readPiece s = .ok piece := by
  rw [readPieces] at h
  split at h
  · cases h
  · exact ⟨_, ‹_›⟩

theorem takes_readPieces {done : List Char} (h : readPieces done s = .ok (text, rest)) :
    Takes (readPieces done) s text rest := by
  fun_induction readPieces done s with
  | case1 => cases h
  | case2 done s piece middle hread next hnext ih =>
    obtain ⟨t, (htext : skipTrivia middle = t ++ rest), ht⟩ := ih h
    have hne : skipTrivia middle ≠ [] := by
      intro hnil
      simp only [next, hnil] at hnext
      cases hnext
    obtain ⟨x, hx, hmiddle⟩ := exists_trivia_append hne
    obtain ⟨t', rfl, ht'⟩ := takes_readPiece hread
    refine ⟨t' ++ (x ++ t), by rw [hmiddle, htext]; simp, fun u hu => ?_⟩
    have hcut : t ++ u <+: skipTrivia middle := by
      rw [htext]
      exact (List.prefix_append_right_inj t).mpr hu
    have hread' : readPiece (t' ++ (x ++ (t ++ u))) = .ok (piece, x ++ (t ++ u)) := by
      refine ht' _ ?_
      conv_rhs => rw [hmiddle]
      exact (List.prefix_append_right_inj x).mpr hcut
    obtain ⟨found, hfound⟩ := exists_readPiece (ht u hu)
    rw [List.append_assoc, List.append_assoc, readPieces_of_readPiece hread',
      skipTrivia_append_of_isPrefix hx hcut, atPiece_of_readPiece hnext hcut hfound, if_pos rfl,
      ht u hu]
  | case3 done s piece tail hread next hnext =>
    cases h
    obtain ⟨t, rfl, ht⟩ := takes_readPiece hread
    refine ⟨t, rfl, fun u hu => ?_⟩
    have hnone := atPiece_skipTrivia_of_isPrefix (by simpa using hnext) hu
    rw [readPieces_of_readPiece (ht u hu), hnone]
    rfl

/-! ### Values without parts -/

theorem takes_readSigned {negative : Bool} {v : Literal}
    (h : readSigned negative s = .ok (v, rest)) : Takes (readSigned negative) s v rest := by
  obtain ⟨w, hread, rfl⟩ := exists_of_readSigned h
  have hne : skipTrivia s ≠ [] := by
    intro hnil
    rw [hnil] at hread
    cases hread
  have htakes := (takes_readNumeral hread).behind_trivia hne
  exact htakes.map fun v => if negative then negated v else v

theorem any_head?_of_isPrefix {p : Char → Bool} {t : List Char} (h : s.head?.any p = false)
    (ht : t <+: s) : t.head?.any p = false := by
  rw [Option.any_eq_false] at h ⊢
  intro c hc
  exact h c (Text.mem_head?_of_isPrefix ht hc)

/-- What is no numeral does not become one when the text behind it is cut off. -/
theorem not_number_of_isPrefix {c : Char} {t : List Char}
    (h : (c.isDigit || (c == '.' && s.head?.any Char.isDigit)) = false) (ht : t <+: s) :
    (c.isDigit || (c == '.' && t.head?.any Char.isDigit)) = false := by
  simp only [Bool.or_eq_false_iff, Bool.and_eq_false_imp] at h ⊢
  exact ⟨h.1, fun hc => any_head?_of_isPrefix (h.2 hc) ht⟩

/-- A numeral that is read where the text has been cut off has kept the digit it begins with. -/
theorem number_of_readNumeral {c : Char} {t : List Char} {found : Literal × List Char}
    (h : (c.isDigit || (c == '.' && s.head?.any Char.isDigit)) = true) (ht : t <+: s)
    (hread : readNumeral (c :: t) = .ok found) :
    (c.isDigit || (c == '.' && t.head?.any Char.isDigit)) = true := by
  cases t with
  | nil =>
    by_cases hc : c = '.'
    · subst hc
      cases hread
    · simpa [hc] using h
  | cons d t =>
    obtain ⟨u, rfl⟩ := ht
    exact h

theorem takes_readAtom_pieces {c : Char} {text : List Char} (hsign : ¬(c = '+' ∨ c = '-'))
    (hnumber : (c.isDigit || (c == '.' && s.head?.any Char.isDigit)) = false)
    (hpiece : atPiece (c :: s) = true) (hread : readPieces [] (c :: s) = .ok (text, rest)) :
    Takes readAtom (c :: s) (.str (String.ofList text)) rest := by
  have hnil (found : List Char × List Char) : readPieces [] [] ≠ .ok found := by
    intro hfound
    obtain ⟨_, ⟨⟩⟩ := exists_readPiece hfound
  obtain ⟨t, hs, ht⟩ := (takes_readPieces hread).exists_cons hnil
  refine ⟨c :: t, congrArg (c :: ·) hs, fun u hu => ?_⟩
  obtain ⟨hcut, hread⟩ := ht u hu
  obtain ⟨_, hfound⟩ := exists_readPiece hread
  have hpiece := atPiece_of_readPiece hpiece ((List.prefix_cons_inj c).mpr hcut) hfound
  rw [List.cons_append,
    readAtom_pieces hsign (not_number_of_isPrefix hnumber hcut) hpiece, hread]
  rfl

theorem takes_readAtom {v : Literal} (h : readAtom s = .ok (v, rest)) :
    Takes readAtom s v rest := by
  cases atomForm_of_readAtom h with
  | @signed c s _ _ hsign hread =>
    obtain ⟨t, rfl, ht⟩ := takes_readSigned hread
    exact ⟨c :: t, rfl, fun u hu => (readAtom_sign hsign).trans (ht u hu)⟩
  | @numeral c s _ _ hsign hnumber hread =>
    obtain ⟨t, hs, ht⟩ := (takes_readNumeral hread).exists_cons (by rintro _ ⟨⟩)
    refine ⟨c :: t, congrArg (c :: ·) hs, fun u hu => ?_⟩
    obtain ⟨hcut, hread⟩ := ht u hu
    rw [List.cons_append, readAtom_number hsign (number_of_readNumeral hnumber hcut hread), hread]
  | pieces hsign hnumber hpiece hread => exact takes_readAtom_pieces hsign hnumber hpiece hread
  | @word c s _ _ hsign hnumber hpiece hletter hread =>
    obtain ⟨t, hs, ht⟩ := (takes_readWord hread).exists_cons (by rintro _ ⟨⟩)
    refine ⟨c :: t, congrArg (c :: ·) hs, fun u hu => ?_⟩
    obtain ⟨hcut, hread⟩ := ht u hu
    have hpiece := atPiece_of_isPrefix hpiece ((List.prefix_cons_inj c).mpr hcut)
    rw [List.cons_append,
      readAtom_word hsign (not_number_of_isPrefix hnumber hcut) hpiece hletter, hread]

/-! ### The reader -/

/-- **Extent of a value.** What is read of a text is read in the same way wherever the text is cut
off behind it. -/
theorem takes_run {stage : Stage} {frames : List Frame} {v : Literal}
    (h : run stage frames s = .ok (v, rest)) : Takes (run stage frames) s v rest := by
  fun_induction run stage frames s with
  | case1 => cases h
  | case2 s frames c tail hs w outer hclosing ih =>
    exact (ih h).behind_char hs fun hskip => run_expect_close hskip hclosing
  | case3 s frames c tail hs hclosing frame hopen ih =>
    exact (ih h).behind_char hs fun hskip => run_expect_open hskip hclosing hopen
  | case4 => cases h
  | case5 s frames c tail hs hclosing hopen w middle hatom ih =>
    obtain ⟨x, hx, hsplit⟩ := exists_trivia_append (s := s) (by simp [hs])
    obtain ⟨t, htext, ht⟩ := (takes_readAtom hatom).behind (ih h)
    refine ⟨x ++ t, by rw [hsplit, hs, htext]; simp, fun u hu => ?_⟩
    have hcut : t ++ u <+: c :: tail := by
      rw [htext]
      exact (List.prefix_append_right_inj t).mpr hu
    have hskip := skipTrivia_append_of_isPrefix hx (hs ▸ hcut)
    obtain ⟨m, hread, hrun⟩ := ht u hu
    rw [List.append_assoc]
    rcases List.prefix_cons_iff.mp hcut with hnil | ⟨y, hy, _⟩
    · rw [hnil] at hread
      cases hread
    · rw [hy] at hskip hread ⊢
      rw [run_expect_atom hskip hclosing hopen hread, hrun]
  | case6 s w =>
    cases h
    exact ⟨[], rfl, fun u _ => run_got_nil⟩
  | case7 => cases h
  | case8 s w frame frames c tail hs closed hafter ih =>
    exact (ih h).behind_char hs fun hskip => run_got_close hskip hafter
  | case9 s w frame frames c tail hs next hafter ih =>
    exact (ih h).behind_char hs fun hskip => run_got_next hskip hafter
  | case10 => cases h

end Scriptorium.Literal
