/-
The tokens of an annotation in the text of its type.

The text is written without regard to tokens, and yet most tokens are found in it again: one that is
no string holds no blank, and a space is left out only beside a character at which a token ends
anyway (`tokens_write`). What gets lost or changed is what stands in the gaps and in the silent
tokens, and the blanks of the strings (`lexemes_typeOf_iff`).
-/

import Scriptorium.Command.Extraction
import Scriptorium.Proofs.Command.Spacing
import Scriptorium.Proofs.Script.Lexeme
import Scriptorium.Proofs.Script.Rescan

namespace Scriptorium.Command

open Script (EndsToken Phrase Scanned Snippet Token isGap tokens)
open Text (isBlank solid)

variable {t : Token} {ts before after hint : Phrase} {s y : List Char}

/-- An annotation whose tokens are all found in the text of its type: it holds no comment, no
backslash joins its lines, and its strings hold single spaces only, none of them inside a bracket
or in front of a comma. -/
structure IsPlain (hint : Phrase) : Prop where
  kind_ne_remark : ∀ t ∈ hint.core, t.kind ≠ .remark
  not_mem_gap : ∀ t ∈ hint.core.tail, '\\' ∉ t.gap
  isTight : ∀ t ∈ hint.core, t.kind = .string → IsTight t.text

/-! ### What is written of tokens -/

theorem endsToken_of_isStop {c : Char} (h : isStop c = true) : EndsToken c := by
  simp only [isStop, isOpener, isCloser, Bool.or_eq_true, beq_iff_eq] at h
  rcases h with (h | rfl | rfl) | (rfl | rfl) | rfl
  · exact .of_isBlank h
  all_goals exact .of_mem (by decide)

/-- A token is written as it is, behind a space or none. -/
theorem exists_write_text {rest : List Char} (h : Scanned t rest) (hstray : t.kind ≠ .stray)
    (hsilent : t.isSilent = false) (hstring : t.kind = .string → IsTight t.text) (p : Pen)
    (s : List Char) :
    ∃ c u d, t.text = u ++ [d] ∧ (EndsToken d → u = []) ∧
      p.write (t.text ++ s) = p.space c ++ (t.text ++ Pen.write ⟨some d, false⟩ s) := by
  obtain ⟨c, tail, htext, -, hc⟩ := h.exists_cons_not_isBlank hstray hsilent
  obtain ⟨u, d, hlast, hblank, hd⟩ := h.exists_getLast? hstray hsilent
  have htight : IsTight (c :: tail) := by
    rw [← htext]
    by_cases hkind : t.kind = .string
    · exact hstring hkind
    · exact isTight_of_not_blank (h.not_isBlank hstray hkind hsilent)
  have hbehind : p.behind t.text = ⟨some d, false⟩ := by
    rw [hlast, Pen.behind_concat_of_not_blank hblank]
  refine ⟨c, u, d, hlast, hd, ?_⟩
  rw [Pen.write_append, hbehind, htext, Pen.write_cons_of_not_blank hc,
    Pen.write_of_isTight hc htight, List.append_assoc]

/-- A token is found where its text is written, and it ends where it ended. -/
theorem scan_write {rest : List Char} (h : Scanned t rest) (hstray : t.kind ≠ .stray)
    (hsilent : t.isSilent = false) (hrest : tokens rest = ts ++ after) {u : List Char} {d : Char}
    (htext : t.text = u ++ [d]) (hd : EndsToken d → u = []) :
    Script.scan (t.text ++ Pen.write ⟨some d, false⟩ (ts.flatMap Token.source)) =
      (t.kind, t.text.length) := by
  have hscan := h.scan_eq hstray
  cases hopener : isOpener d with
  | true =>
    have hmem : d ∈ ['(', '['] := by
      simp only [isOpener, Bool.or_eq_true, beq_iff_eq] at hopener
      rcases hopener with rfl | rfl <;> decide
    obtain rfl := hd (endsToken_of_isStop (by simp [isStop, hopener]))
    rw [htext, List.nil_append, List.singleton_append, Script.scan_opening hmem] at hscan
    rw [htext, List.nil_append, List.singleton_append, Script.scan_opening hmem, hscan]
  | false =>
    obtain ⟨more, rfl, -⟩ := Script.exists_eq_append_of_tokens hrest
    obtain ⟨p, behind, written, hp, hwrite, hstops⟩ :=
      Pen.exists_write_eq hopener (ts.flatMap Token.source)
    rw [hp, List.append_assoc] at hscan
    rw [hwrite]
    exact Script.scan_rescan hscan h.text_ne_nil hstray (Token.isSilent_eq_false_iff.mp hsilent).1
      fun c hc => endsToken_of_isStop (hstops c hc)

theorem isGap_write {p : Pen} {gap : List Char} (h : ∀ c ∈ gap, isGap c = true) :
    ∀ c ∈ p.write gap, isGap c = true := by
  intro c hc
  rcases Pen.mem_write hc with rfl | ⟨hmem, -⟩
  · decide
  · exact h c hmem

/-- The tokens of what is written behind a gap. -/
theorem tokens_write (htokens : tokens y = ts ++ after) (hstray : ∀ t ∈ ts, t.kind ≠ .stray)
    (hremark : ∀ t ∈ ts, t.kind ≠ .remark) (hslash : ∀ t ∈ ts, '\\' ∉ t.gap)
    (hstring : ∀ t ∈ ts, t.kind = .string → IsTight t.text) (p : Pen) {gap : List Char}
    (hgap : ∀ c ∈ gap, isGap c = true) :
    (tokens (gap ++ p.write (ts.flatMap Token.source))).map Token.lexeme = Phrase.lexemes ts := by
  -- On the tokens; what has been written since the last of them is a gap, and any pen will do.
  induction ts generalizing y p gap with
  | nil =>
    rw [List.flatMap_nil, Pen.write, List.append_nil, Script.tokens_of_gap hgap]
    rfl
  | cons t ts ih =>
    obtain ⟨rest, rfl, hrest, hfront, h⟩ := Script.tokens_eq_cons htokens
    simp only [List.forall_mem_cons] at hstray hremark hslash hstring
    have hall : ∀ c ∈ t.gap, isGap c = true := by
      intro c hc
      rw [hfront] at hc hslash
      exact (Script.isGap_of_mem_take hc).resolve_right fun h => hslash.1 h.2.1
    -- The gap is written in front, and what is left is to be written behind it.
    let front := gap ++ p.write t.gap
    let q := p.behind t.gap
    have hfrontGap : ∀ c ∈ front, isGap c = true :=
      List.forall_mem_append.mpr ⟨hgap, isGap_write hall⟩
    have hwrite : gap ++ p.write ((t :: ts).flatMap Token.source) =
        front ++ q.write (t.text ++ ts.flatMap Token.source) := by
      rw [List.flatMap_cons, Token.source, List.append_assoc, Pen.write_append,
        ← List.append_assoc]
    rw [hwrite]
    cases hsilent : t.isSilent with
    | true =>
      have hfeed : t.kind = .lineEnd := by
        simp only [Token.isSilent, Bool.or_eq_true, beq_iff_eq] at hsilent
        exact hsilent.resolve_left hremark.1
      rw [h.text_of_lineEnd hfeed, List.singleton_append, Pen.write_cons_of_isBlank (by decide),
        Phrase.lexemes_cons_of_isSilent hsilent]
      exact ih hrest hstray.2 hremark.2 hslash.2 hstring.2 _ hfrontGap
    | false =>
      obtain ⟨c, u, d, hlast, hd, htoken⟩ :=
        exists_write_text h hstray.1 hsilent hstring.1 q (ts.flatMap Token.source)
      have hspace : ∀ b ∈ front ++ q.space c, isGap b = true := by
        refine List.forall_mem_append.mpr ⟨hfrontGap, fun b hb => ?_⟩
        rw [Pen.space_subset q c b hb]
        decide
      rw [htoken, ← List.append_assoc,
        Script.tokens_append hspace h.text_ne_nil (h.gapLength_append hstray.1 _)
          (scan_write h hstray.1 hsilent hrest hlast hd),
        List.map_cons, Phrase.lexemes_cons_of_not_isSilent hsilent]
      have hmore := ih hrest hstray.2 hremark.2 hslash.2 hstring.2 ⟨some d, false⟩
        (List.forall_mem_nil _)
      rw [List.nil_append] at hmore
      rw [hmore]
      rfl

/-! ### What is lost -/

theorem not_mem_feed_typeText (s : List Char) : '\n' ∉ typeText s := by
  intro hmem
  rw [typeText_eq] at hmem
  rcases Pen.mem_write hmem with h | ⟨-, h⟩
  · exact absurd h (by decide)
  · exact absurd h (by decide)

/-- If the tokens are those of the annotation, its gaps and its silent tokens hold nothing that
would be written as part of a token. -/
theorem not_mem_of_lexemes {c : Char} {p : Phrase} (hgap : isGap c = false)
    (hblank : isBlank c = false)
    (h : (tokens (typeText (p.flatMap Token.source))).map Token.lexeme = p.lexemes) :
    ∀ t ∈ p, c ∉ t.gap ∧ (t.isSilent = true → c ∉ t.text) := by
  have hsolid : ∀ s : List Char, (solid s).count c = s.count c :=
    fun s => List.count_filter (by simp [hblank])
  apply (Phrase.count_lexemes c p).2
  calc (p.lexemes.map (·.2.count c)).sum
      = ((tokens (typeText (p.flatMap Token.source))).map fun t => t.text.count c).sum := by
        rw [← h, List.map_map]
        rfl
    _ = (typeText (p.flatMap Token.source)).count c :=
        (Script.count_of_tokens (not_mem_feed_typeText _) hgap).symm
    _ = (p.flatMap Token.source).count c := by
        rw [← hsolid, typeText_eq, Pen.solid_write, hsolid]

/-- A string that is found in the text of a type is tight. -/
theorem isTight_of_mem_tokens (hsilent : t.isSilent = false) (hstray : t.kind ≠ .stray)
    (h : t ∈ tokens (typeText s)) : IsTight t.text := by
  obtain ⟨front, rest, heq, hscanned⟩ := Script.exists_of_mem_tokens h
  have htight := isTight_typeText s
  rw [heq] at htight
  obtain ⟨c, tail, htext, -, hc⟩ := hscanned.exists_cons_not_isBlank hstray hsilent
  obtain ⟨u, d, hlast, hd, -⟩ := hscanned.exists_getLast? hstray hsilent
  refine (htight.of_append_right ?_).of_append_left ?_
  · simpa [htext] using hc
  · simpa [hlast] using hd

/-! ### The annotation of a parameter -/

/-- The tokens of an annotation are those of a text of their own that begins with no gap. -/
theorem exists_tokens_atMargin (htokens : tokens s = before ++ hint ++ after)
    (hstray : ∀ t ∈ hint.core, t.kind ≠ .stray) :
    ∃ y behind, tokens y = hint.core.atMargin ++ behind := by
  obtain ⟨front, back, hhint, -, -⟩ := hint.exists_core_append
  have hcore : tokens s = (before ++ front) ++ (hint.core ++ (back ++ after)) := by
    rw [htokens]
    conv_lhs => rw [hhint]
    simp only [List.append_assoc]
  obtain ⟨y, -, hy⟩ := Script.exists_eq_append_of_tokens hcore
  cases h : hint.core with
  | nil => exact ⟨y, tokens y, rfl⟩
  | cons t ts =>
    rw [h, List.forall_mem_cons] at hstray
    rw [h, List.cons_append] at hy
    obtain ⟨rest, -, hrest, -, hscanned⟩ := Script.tokens_eq_cons hy
    refine ⟨[] ++ (t.text ++ rest), back ++ after, ?_⟩
    rw [Script.tokens_append (List.forall_mem_nil _) hscanned.text_ne_nil
      (hscanned.gapLength_append hstray.1 rest) (hscanned.scan_eq hstray.1), hrest]
    rfl

/-- The type of an annotation without errors is never the fallback. -/
theorem toList_typeOf (hy : tokens y = hint.core.atMargin ++ after)
    (hwell : (Snippet.ofPhrase .hint hint).wellFormed = true) (fallback : String) :
    (typeOf fallback (Snippet.ofPhrase .hint hint)).toList =
      typeText (hint.core.atMargin.flatMap Token.source) := by
  have hstray := Script.kind_ne_stray_of_isWellFormed hwell
  have hsource : (Snippet.ofPhrase .hint hint).text = hint.core.atMargin.flatMap Token.source :=
    (Phrase.flatMap_source_atMargin _).symm
  have hne : typeText (Snippet.ofPhrase .hint hint).text ≠ [] := by
    obtain ⟨t, ts, hcore⟩ := List.exists_cons_of_ne_nil (Script.ne_nil_of_isWellFormed hwell)
    change hint.core = t :: ts at hcore
    have hsilent : t.isSilent = false := Phrase.isSilent_of_core hcore
    obtain ⟨rest, -, -, -, hscanned⟩ := Script.tokens_eq_cons (hcore ▸ hy)
    obtain ⟨c, tail, htext, -, hc⟩ := hscanned.exists_cons_not_isBlank
      (hstray t (hcore ▸ List.mem_cons_self)) hsilent
    change t.text = c :: tail at htext
    intro hnil
    have hsolid := Pen.solid_write {} (Snippet.ofPhrase .hint hint).text
    rw [← typeText_eq, hnil, hsource, hcore] at hsolid
    simp [Phrase.atMargin, Token.source, htext, Text.solid_cons_of_not_blank hc] at hsolid
  rw [typeOf, if_pos ⟨hwell, hne⟩, String.toList_ofList, hsource]

/-- **Type texts.** The text of the type of an annotation without errors has the same tokens,
comments left out, exactly if the annotation is plain. -/
theorem lexemes_typeOf_iff (htokens : tokens s = before ++ hint ++ after)
    (hwell : (Snippet.ofPhrase .hint hint).wellFormed = true) (fallback : String) :
    (tokens (typeOf fallback (Snippet.ofPhrase .hint hint)).toList).map Token.lexeme =
      hint.lexemes ↔ IsPlain hint := by
  have hstray : ∀ t ∈ hint.core, t.kind ≠ .stray := Script.kind_ne_stray_of_isWellFormed hwell
  obtain ⟨y, behind, hy⟩ := exists_tokens_atMargin htokens hstray
  rw [toList_typeOf hy hwell fallback, ← hint.lexemes_core, ← hint.core.lexemes_atMargin]
  constructor
  · intro h
    refine ⟨?_, ?_, fun t ht hstring => ?_⟩
    · refine (Phrase.forall_mem_atMargin (P := fun l => l.1 ≠ .remark)).mp fun t ht hremark => ?_
      change t.kind = .remark at hremark
      obtain ⟨-, hnone⟩ := not_mem_of_lexemes (c := '#') (by decide) (by decide) h t ht
      obtain ⟨front, rest, -, hscanned⟩ :=
        Script.exists_of_mem_tokens (hy ▸ List.mem_append_left _ ht)
      exact hnone (by simp [Token.isSilent, hremark])
        (List.mem_of_mem_head? (hscanned.head?_of_remark hremark))
    · refine (Phrase.forall_mem_gap_atMargin (P := fun gap => '\\' ∉ gap) (by simp)).mp ?_
      exact fun t ht => (not_mem_of_lexemes (by decide) (by decide) h t ht).1
    · have hsilent : t.isSilent = false := by simp [Token.isSilent, hstring]
      have hmem : t.lexeme ∈ hint.core.lexemes :=
        List.mem_map_of_mem (List.mem_filter.mpr ⟨ht, by simp [hsilent]⟩)
      rw [← hint.core.lexemes_atMargin, ← h] at hmem
      obtain ⟨u, hu, hlexeme⟩ := List.mem_map.mp hmem
      obtain ⟨hkind, htext⟩ := Prod.mk.inj hlexeme
      rw [hstring] at hkind
      rw [← htext]
      exact isTight_of_mem_tokens (by simp [Token.isSilent, hkind]) (by simp [hkind]) hu
  · intro h
    rw [typeText_eq]
    exact tokens_write hy
      ((Phrase.forall_mem_atMargin (P := fun l => l.1 ≠ .stray)).mpr hstray)
      ((Phrase.forall_mem_atMargin (P := fun l => l.1 ≠ .remark)).mpr h.kind_ne_remark)
      ((Phrase.forall_mem_gap_atMargin (P := fun gap => '\\' ∉ gap) (by simp)).mpr h.not_mem_gap)
      ((Phrase.forall_mem_atMargin (P := fun l => l.1 = .string → IsTight l.2)).mpr h.isTight)
      {} (List.forall_mem_nil _)

theorem lexemes_typeOf_literal :
    let hint : Phrase := tokens "Literal[ 'a b' ,\n    1 ]".toList
    (tokens (typeOf "Any" (Snippet.ofPhrase .hint hint)).toList).map Token.lexeme = hint.lexemes :=
  have hall : tokens "Literal[ 'a b' ,\n    1 ]".toList = [] ++ tokens _ ++ [] :=
    (List.append_nil _).symm
  (lexemes_typeOf_iff hall (by decide +kernel) "Any").mpr
    ⟨by decide +kernel, by decide +kernel, by decide +kernel⟩

/-- A comment in an annotation hides what follows it once the text is in one line. -/
theorem lexemes_typeOf_of_remark :
    let source := "@app.command()\ndef f(x: Dict[  # key\n    str, int]):\n    pass\n"
    let hint : Phrase := ((tokens source.toList).drop 12).take 8
    let type := "Dict[# key str, int]"
    (Snippet.ofPhrase .hint hint).wellFormed = true ∧
      typeOf "Any" (Snippet.ofPhrase .hint hint) = type ∧
      (extract {} source).map (fun c => c.parameters.map (·.type)) = [[type]] ∧
      (tokens type.toList).map Token.lexeme ≠ hint.lexemes ∧
      (tokens type.toList).map (fun t => String.ofList t.text) =
        ["Dict", "[", "# key str, int]"] := by
  decide +kernel

end Scriptorium.Command
