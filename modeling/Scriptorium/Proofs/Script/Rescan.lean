/-
Tokens in another text.

A token is found again wherever its text stands with the same characters behind it up to the end of
a token (`scan_rescan`). A run of tokens is a part of the source (`exists_eq_append_of_tokens`), and
each of its tokens carries what the scanner has seen of it (`Token.Scanned`).
-/

import Scriptorium.Proofs.Script.StringEnd
import Scriptorium.Script.Phrase
import Mathlib.Algebra.GroupWithZero.Nat

namespace Scriptorium.Script

variable {c : Char} {s : List Char} {k : Kind} {n : Nat}

/-! ### How long a token is -/

theorem one_le_numberLength (hc : c.isDigit = true) (s : List Char) :
    1 ≤ numberLength (c :: s) := by
  have hdigits : 1 ≤ digitRun false (c :: s) := by
    rw [digitRun, if_pos hc]
    omega
  rw [numberLength]
  dsimp only
  split_ifs <;> omega

theorem one_le_length_of_mem_operators : ∀ op ∈ operators, 1 ≤ op.length := by decide

theorem plainScan_bounds (h : plainScan s = (k, n)) (hk : k ≠ .stray) : 1 ≤ n ∧ n ≤ s.length := by
  cases s with
  | nil =>
    cases h
    exact absurd rfl hk
  | cons c s =>
    rw [plainScan] at h
    split_ifs at h with hname hnumber hremark
    · obtain ⟨-, rfl⟩ := Prod.mk.inj h
      have hpart := Text.isNamePart_of_isNameStart hname
      refine ⟨?_, nameLength.le _⟩
      simp [hpart]
    · obtain ⟨-, rfl⟩ := Prod.mk.inj h
      refine ⟨?_, IsLength.numberLength.le _⟩
      by_cases hc : c.isDigit = true
      · exact one_le_numberLength hc s
      · simp only [hc, Bool.false_or, Bool.and_eq_true, beq_iff_eq] at hnumber
        obtain ⟨rfl, hdigit⟩ := hnumber
        cases s with
        | nil => simp at hdigit
        | cons d s =>
          exact Nat.le_of_succ_le (IsLength.two_le_numberLength (by simpa using hdigit) s)
    · obtain ⟨-, rfl⟩ := Prod.mk.inj h
      refine ⟨?_, (List.takeWhile_sublist _).length_le⟩
      simp [hremark]
    · obtain ⟨-, rfl⟩ := Prod.mk.inj h
      simp
    · obtain ⟨-, rfl⟩ := Prod.mk.inj h
      simp
    · obtain ⟨-, rfl⟩ := Prod.mk.inj h
      simp
    · split at h
      · rename_i op hop
        obtain ⟨-, rfl⟩ := Prod.mk.inj h
        have hbegins := List.find?_some hop
        rw [List.isPrefixOf_iff_prefix] at hbegins
        exact ⟨one_le_length_of_mem_operators op (List.mem_of_find?_eq_some hop), hbegins.length_le⟩
      · obtain ⟨rfl, -⟩ := Prod.mk.inj h
        exact absurd rfl hk

theorem scan_bounds (h : scan s = (k, n)) (hk : k ≠ .stray) : 1 ≤ n ∧ n ≤ s.length := by
  by_cases hstring : k = .string
  · subst hstring
    have := string_bounds h
    omega
  · cases hopens : opensString s with
    | true =>
      rcases scan_of_opensString hopens with h' | h' <;> rw [h] at h'
      · exact absurd h' hstring
      · exact absurd h' hk
    | false =>
      rw [scan_eq_plainScan hopens] at h
      exact plainScan_bounds h hk

/-! ### The same token in another text -/

/-- **A token is found again behind the same characters**, if these are followed by the end of a
token. -/
theorem scan_rescan {text p rest rest' : List Char}
    (h : scan (text ++ (p ++ rest)) = (k, text.length)) (htext : text ≠ [])
    (hstray : k ≠ .stray) (hremark : k ≠ .remark) (hrest' : Ends rest') :
    scan (text ++ (p ++ rest')) = (k, text.length) := by
  by_cases hstring : k = .string
  · subst hstring
    refine scan_string h fun c hc hmark => ?_
    cases p with
    | nil =>
      rw [List.nil_append] at hc
      rw [(hrest' c hc).not_isMark] at hmark
      cases hmark
    | cons d p => exact hc
  · have hopens : opensString (text ++ (p ++ rest)) = false := by
      by_contra hopens
      rcases scan_of_opensString (by simpa using hopens) with h' | h' <;> rw [h] at h'
      · exact hstring h'
      · exact hstray h'
    rw [← List.append_assoc] at h hopens ⊢
    rw [scan_eq_plainScan hopens] at h
    have hne : text ++ p ≠ [] := by simp [htext]
    have hcut : plainScan (text ++ p) = (k, text.length) := by
      rw [plainScan_of_append hne (by rw [h, List.length_append]; exact Nat.le_add_right _ _), h]
    have hhead : (text ++ p).head? ≠ some '#' := by
      intro hhead
      obtain ⟨tail, htail⟩ := List.head?_eq_some_iff.mp hhead
      rw [htail] at hcut
      exact hremark (congrArg Prod.fst hcut).symm
    have hopens' : opensString (text ++ p ++ rest') = false := by
      rw [opensString_append _ hrest']
      exact opensString_of_append hopens
    rw [scan_eq_plainScan hopens', plainScan_append hne hhead hrest', hcut]

/-! ### Gaps -/

theorem isGap_slash : isGap '\\' = false := by decide

theorem gapLength_cons_of_ne (h : c ≠ '\\') (s : List Char) :
    gapLength (c :: s) = if isGap c then 1 + gapLength s else 0 :=
  gapLength.eq_3 c s (fun _ hc _ => h hc) (fun _ hc _ => h hc)

theorem gapLength_cons_of_isGap (h : isGap c = true) (s : List Char) :
    gapLength (c :: s) = gapLength s + 1 := by
  have hne : c ≠ '\\' := by
    rintro rfl
    rw [isGap_slash] at h
    cases h
  rw [gapLength_cons_of_ne hne, if_pos h, Nat.add_comm]

theorem gapLength_append {gap : List Char} (hgap : ∀ c ∈ gap, isGap c = true) (s : List Char) :
    gapLength (gap ++ s) = gap.length + gapLength s := by
  induction gap with
  | nil => simp
  | cons c gap ih =>
    rw [List.forall_mem_cons] at hgap
    rw [List.cons_append, gapLength_cons_of_isGap hgap.1, ih hgap.2, List.length_cons]
    omega

/-- A gap goes as far as it can. -/
theorem gapLength_drop (s : List Char) : gapLength (s.drop (gapLength s)) = 0 := by
  fun_induction gapLength s with
  | case1 s ih => rwa [Nat.add_comm]
  | case2 s ih => rwa [Nat.add_comm]
  | case3 c s _ _ hc ih => rwa [Nat.add_comm, List.drop_succ_cons]
  | case4 c s hfeed hreturn hc =>
    unfold gapLength
    split <;> simp_all
  | case5 => rfl

/-- In a gap stand characters that mean nothing, and the line ends behind a backslash. -/
theorem isGap_of_mem_take (h : c ∈ s.take (gapLength s)) :
    isGap c = true ∨ (c = '\\' ∨ c = '\n') ∧ '\\' ∈ s.take (gapLength s) ∧ '\n' ∈ s := by
  fun_induction gapLength s with
  | case1 s ih =>
    rw [Nat.add_comm] at h ⊢
    simp only [List.take_succ_cons, List.mem_cons] at h ⊢
    rcases h with rfl | rfl | h
    · simp
    · simp
    · rcases ih h with hc | ⟨hc, -⟩
      · exact .inl hc
      · simp [hc]
  | case2 s ih =>
    rw [Nat.add_comm] at h ⊢
    simp only [List.take_succ_cons, List.mem_cons] at h ⊢
    rcases h with rfl | rfl | rfl | h
    · simp
    · exact .inl (by decide)
    · simp
    · rcases ih h with hc | ⟨hc, -⟩
      · exact .inl hc
      · simp [hc]
  | case3 d s _ _ hd ih =>
    rw [Nat.add_comm] at h ⊢
    simp only [List.take_succ_cons, List.mem_cons] at h ⊢
    rcases h with rfl | h
    · exact .inl hd
    · rcases ih h with hc | ⟨hc, hslash, hfeed⟩
      · exact .inl hc
      · exact .inr ⟨hc, .inr hslash, .inr hfeed⟩
  | case4 => simp at h
  | case5 => simp at h

/-! ### The tokens of a text -/

/-- What the scanner has seen of a token and of the text behind it. -/
structure Scanned (t : Token) (rest : List Char) : Prop where
  text_ne_nil : t.text ≠ []
  gapLength_eq : gapLength (t.text ++ rest) = 0
  scan_eq : t.kind ≠ .stray → scan (t.text ++ rest) = (t.kind, t.text.length)

theorem tokens_of_gap {gap : List Char} (h : ∀ c ∈ gap, isGap c = true) : tokens gap = [] := by
  have hlength := gapLength_append h []
  rw [List.append_nil] at hlength
  have hdrop : gap.drop (gapLength gap) = [] := List.drop_eq_nil_of_le (by omega)
  rw [tokens]
  split
  · rfl
  · rename_i hrest
    rw [hdrop] at hrest
    cases hrest

/-- A token is read behind a gap. -/
theorem tokens_append {gap text rest : List Char} (hgap : ∀ c ∈ gap, isGap c = true)
    (htext : text ≠ []) (hzero : gapLength (text ++ rest) = 0)
    (hscan : scan (text ++ rest) = (k, text.length)) :
    tokens (gap ++ (text ++ rest)) = ⟨k, gap, text⟩ :: tokens rest := by
  have hlength : gapLength (gap ++ (text ++ rest)) = gap.length := by
    rw [gapLength_append hgap, hzero, Nat.add_zero]
  obtain ⟨c, more, rfl⟩ := List.exists_cons_of_ne_nil htext
  rw [tokens]
  split
  · rename_i hrest
    rw [hlength, List.drop_left] at hrest
    cases hrest
  · rename_i d rest' hrest
    rw [hlength, List.drop_left, List.cons_append] at hrest
    obtain ⟨rfl, rfl⟩ := List.cons.inj hrest
    rw [List.cons_append] at hscan hlength
    simp [hlength, hscan]

theorem tokens_eq_cons {t : Token} {ts : Phrase} (h : tokens s = t :: ts) :
    ∃ rest, s = t.source ++ rest ∧ tokens rest = ts ∧ t.gap = s.take (gapLength s) ∧
      Scanned t rest := by
  rw [tokens] at h
  split at h
  · cases h
  · rename_i c rest hrest
    generalize hscan : scan (c :: rest) = seen at h
    obtain ⟨kind, length⟩ := seen
    obtain ⟨rfl, rfl⟩ := List.cons.inj h
    have hwhole : c :: rest.take (length - 1) ++ rest.drop (length - 1) = c :: rest := by
      rw [List.cons_append, List.take_append_drop]
    refine ⟨rest.drop (length - 1), ?_, rfl, rfl, List.cons_ne_nil _ _, ?_, ?_⟩
    · rw [Token.source, List.append_assoc, hwhole, ← hrest, List.take_append_drop]
    · rw [hwhole, ← hrest, gapLength_drop]
    · intro hstray
      have hbounds := scan_bounds hscan hstray
      rw [List.length_cons] at hbounds
      rw [hwhole, hscan, List.length_cons, List.length_take]
      exact Prod.ext rfl (by dsimp only; omega)

/-- A run of tokens is a part of the text, and the tokens behind it are those of the rest. -/
theorem exists_eq_append_of_tokens {ts us : Phrase} (h : tokens s = ts ++ us) :
    ∃ rest, s = ts.flatMap Token.source ++ rest ∧ tokens rest = us := by
  induction ts generalizing s with
  | nil => exact ⟨s, rfl, h⟩
  | cons t ts ih =>
    obtain ⟨rest, rfl, hrest, -⟩ := tokens_eq_cons h
    obtain ⟨rest', rfl, hrest'⟩ := ih hrest
    exact ⟨rest', by rw [List.flatMap_cons, List.append_assoc], hrest'⟩

theorem exists_of_mem_tokens {t : Token} (h : t ∈ tokens s) :
    ∃ before rest, s = before ++ (t.text ++ rest) ∧ Scanned t rest := by
  obtain ⟨front, back, htokens⟩ := List.append_of_mem h
  obtain ⟨behind, rfl, hbehind⟩ := exists_eq_append_of_tokens htokens
  obtain ⟨rest, rfl, -, -, hscanned⟩ := tokens_eq_cons hbehind
  exact ⟨front.flatMap Token.source ++ t.gap, rest, by simp [Token.source], hscanned⟩

/-- In one line a gap holds gap characters only. -/
theorem count_gap (hfeed : '\n' ∉ s) (hc : isGap c = false) :
    (s.take (gapLength s)).count c = 0 := by
  refine List.count_eq_zero.mpr fun hmem => ?_
  rcases isGap_of_mem_take hmem with hgap | ⟨-, -, hmem⟩
  · rw [hc] at hgap
    cases hgap
  · exact hfeed hmem

/-- All other characters of a line stand in its tokens. -/
theorem count_of_tokens (hfeed : '\n' ∉ s) (hc : isGap c = false) :
    s.count c = ((tokens s).map fun t => t.text.count c).sum := by
  have hgap := count_gap hfeed hc
  generalize htokens : tokens s = ts
  induction ts generalizing s with
  | nil =>
    have hdrop : s.drop (gapLength s) = [] := by
      rw [tokens] at htokens
      split at htokens
      · assumption
      · cases htokens
    rw [List.take_of_length_le (List.drop_eq_nil_iff.mp hdrop)] at hgap
    rw [hgap]
    rfl
  | cons t ts ih =>
    obtain ⟨rest, hs, hrest, hfront, -⟩ := tokens_eq_cons htokens
    have hfeed' : '\n' ∉ rest := fun hmem => hfeed (by rw [hs]; exact List.mem_append_right _ hmem)
    rw [← hfront] at hgap
    rw [hs, Token.source, List.count_append, List.count_append, hgap,
      ih hfeed' (count_gap hfeed' hc) hrest, List.map_cons, List.sum_cons, Nat.zero_add]

/-! ### The characters of a token -/

theorem Token.isSilent_eq_false_iff {t : Token} :
    t.isSilent = false ↔ t.kind ≠ .remark ∧ t.kind ≠ .lineEnd := by
  simp [isSilent]

theorem scan_feed (s : List Char) : scan ('\n' :: s) = (.lineEnd, 1) :=
  scan_eq_plainScan (s := '\n' :: s) rfl

/-- A bracket is a token whatever stands behind it. -/
theorem scan_opening (h : c ∈ ['(', '[']) (s : List Char) : scan (c :: s) = (.opening, 1) := by
  simp only [List.mem_cons, List.not_mem_nil, or_false] at h
  rcases h with rfl | rfl
  · exact scan_eq_plainScan (s := '(' :: s) rfl
  · exact scan_eq_plainScan (s := '[' :: s) rfl

/-- A backslash is no token. -/
theorem scan_slash (s : List Char) : scan ('\\' :: s) = (.stray, 1) :=
  scan_eq_plainScan (s := '\\' :: s) rfl

theorem operator?_of_isBlank (h : Text.isBlank c = true) (s : List Char) :
    operator? (c :: s) = none := by
  have hall : (operators.all fun op => op.head?.any fun d => !Text.isBlank d) = true := by decide
  refine List.find?_eq_none.mpr fun op hop hbegins => ?_
  have hhead := List.all_eq_true.mp hall op hop
  obtain ⟨rest, hrest⟩ := List.isPrefixOf_iff_prefix.mp hbegins
  cases op with
  | nil => cases hhead
  | cons d op =>
    obtain ⟨rfl, -⟩ := List.cons.inj hrest
    simp [h] at hhead

/-- A blank is no token, unless it ends the line. -/
theorem scan_of_isBlank (h : Text.isBlank c = true) (hfeed : c ≠ '\n') (s : List Char) :
    scan (c :: s) = (.stray, 1) := by
  have hends := EndsToken.of_isBlank h
  have hopens : opensString (c :: s) = false := by
    simp [opensString, hends.not_isFlag, hends.not_isMark]
  have hstart : Text.isNameStart c = false := by
    rw [Bool.eq_false_iff]
    intro hstart
    have hpart := Text.isNamePart_of_isNameStart hstart
    rw [hends.not_isNamePart] at hpart
    cases hpart
  have hpoint : c ≠ '.' := fun hc => hends.not_sign (by simp [hc])
  have hother : c ∉ ['#', '(', '[', '\x7b', ')', ']', '\x7d'] := by
    intro hmem
    have hall :
        (['#', '(', '[', '\x7b', ')', ']', '\x7d'].all fun d => !Text.isBlank d) = true := by
      decide
    have hc := List.all_eq_true.mp hall c hmem
    simp [h] at hc
  simp only [List.mem_cons, List.not_mem_nil, or_false, not_or] at hother
  rw [scan_eq_plainScan hopens]
  simp [plainScan, hstart, hends.not_isDigit, hpoint, hfeed, hother, operator?_of_isBlank h]

/-- A comment begins with its sign, and a line end is one character. -/
theorem silent_of_plainScan (h : plainScan s = (k, n)) :
    (k = .remark → s.head? = some '#') ∧ (k = .lineEnd → s.head? = some '\n' ∧ n = 1) := by
  cases s with
  | nil =>
    cases h
    simp
  | cons c s =>
    rw [plainScan] at h
    split_ifs at h with hname hnumber hsign hfeed hopening hclosing
    · cases h
      simp
    · cases h
      simp
    · cases h
      simp [hsign]
    · cases h
      simp [hfeed]
    · cases h
      simp
    · cases h
      simp
    · split at h <;> cases h <;> simp

namespace Scanned

variable {t : Token} {rest : List Char}

/-- A token begins with no gap. -/
theorem exists_cons (h : Scanned t rest) : ∃ c tail, t.text = c :: tail ∧ isGap c = false := by
  obtain ⟨c, tail, htext⟩ := List.exists_cons_of_ne_nil h.text_ne_nil
  refine ⟨c, tail, htext, ?_⟩
  by_contra hgap
  have hzero := h.gapLength_eq
  rw [htext, List.cons_append, gapLength_cons_of_isGap (by simpa using hgap)] at hzero
  omega

theorem opensString_eq_false (h : Scanned t rest) (hstray : t.kind ≠ .stray)
    (hstring : t.kind ≠ .string) : opensString (t.text ++ rest) = false := by
  by_contra hopens
  rcases scan_of_opensString (by simpa using hopens) with hkind | hkind <;>
    rw [h.scan_eq hstray] at hkind
  · exact hstring hkind
  · exact hstray hkind

theorem plainScan_eq (h : Scanned t rest) (hstray : t.kind ≠ .stray)
    (hstring : t.kind ≠ .string) : plainScan (t.text ++ rest) = (t.kind, t.text.length) := by
  rw [← scan_eq_plainScan (h.opensString_eq_false hstray hstring), h.scan_eq hstray]

/-- A token that is no string ends before the first character that ends any token, unless it begins
with that. -/
theorem not_endsToken (h : Scanned t rest) (hstray : t.kind ≠ .stray) (hstring : t.kind ≠ .string)
    (hremark : t.kind ≠ .remark) {u v : List Char} (htext : t.text = u ++ c :: v) (hu : u ≠ []) :
    ¬ EndsToken c := by
  intro hc
  have hscan := h.plainScan_eq hstray hstring
  have hhead : u.head? ≠ some '#' := by
    intro hhead
    obtain ⟨tail, rfl⟩ := List.head?_eq_some_iff.mp hhead
    rw [htext] at hscan
    exact hremark (congrArg Prod.fst hscan).symm
  rw [htext, List.append_assoc, plainScan_append hu hhead (by simpa [Ends] using hc)] at hscan
  have hle := (plainScan_bounds hscan hstray).2
  rw [List.length_append, List.length_cons] at hle
  omega

/-- No gap begins where the token begins, whatever stands behind it. -/
theorem gapLength_append (h : Scanned t rest) (hstray : t.kind ≠ .stray) (s : List Char) :
    gapLength (t.text ++ s) = 0 := by
  obtain ⟨c, tail, htext, hgap⟩ := h.exists_cons
  have hslash : c ≠ '\\' := by
    rintro rfl
    have hscan := h.scan_eq hstray
    rw [htext, List.cons_append, scan_slash] at hscan
    exact hstray (congrArg Prod.fst hscan).symm
  rw [htext, List.cons_append, gapLength_cons_of_ne hslash, if_neg (by simp [hgap])]

/-- A line end is one character. -/
theorem text_of_lineEnd (h : Scanned t rest) (hfeed : t.kind = .lineEnd) : t.text = ['\n'] := by
  have hscan := h.plainScan_eq (by simp [hfeed]) (by simp [hfeed])
  obtain ⟨hhead, hlength⟩ := (silent_of_plainScan hscan).2 hfeed
  obtain ⟨c, htext⟩ := List.length_eq_one_iff.mp hlength
  rw [htext] at hhead ⊢
  simpa using hhead

/-- A comment begins with its sign. -/
theorem head?_of_remark (h : Scanned t rest) (hremark : t.kind = .remark) :
    t.text.head? = some '#' := by
  have hscan := h.plainScan_eq (by simp [hremark]) (by simp [hremark])
  have hhead := (silent_of_plainScan hscan).1 hremark
  obtain ⟨c, tail, htext⟩ := List.exists_cons_of_ne_nil h.text_ne_nil
  rw [htext] at hhead ⊢
  simpa using hhead

/-- A token that is not silent begins with no blank. -/
theorem exists_cons_not_isBlank (h : Scanned t rest) (hstray : t.kind ≠ .stray)
    (hsilent : t.isSilent = false) :
    ∃ c tail, t.text = c :: tail ∧ isGap c = false ∧ Text.isBlank c = false := by
  obtain ⟨c, tail, htext, hgap⟩ := h.exists_cons
  refine ⟨c, tail, htext, hgap, ?_⟩
  have hfeed : c ≠ '\n' := by
    rintro rfl
    have hscan := h.scan_eq hstray
    rw [htext, List.cons_append, scan_feed] at hscan
    exact (Token.isSilent_eq_false_iff.mp hsilent).2 (congrArg Prod.fst hscan).symm
  by_contra hblank
  have hscan := h.scan_eq hstray
  rw [htext, List.cons_append, scan_of_isBlank (by simpa using hblank) hfeed] at hscan
  exact hstray (congrArg Prod.fst hscan).symm

/-- A token that is neither silent nor a string holds no blank. -/
theorem not_isBlank (h : Scanned t rest) (hstray : t.kind ≠ .stray) (hstring : t.kind ≠ .string)
    (hsilent : t.isSilent = false) : ∀ c ∈ t.text, Text.isBlank c = false := by
  obtain ⟨d, tail, htext, -, hd⟩ := h.exists_cons_not_isBlank hstray hsilent
  intro c hc
  rw [htext] at hc
  rcases List.mem_cons.mp hc with rfl | hc
  · exact hd
  · by_contra hblank
    obtain ⟨u, v, rfl⟩ := List.append_of_mem hc
    exact h.not_endsToken hstray hstring (Token.isSilent_eq_false_iff.mp hsilent).1 htext
      (List.cons_ne_nil d u) (.of_isBlank (by simpa using hblank))

/-- A token that is not silent ends with no blank, and with the end of a token only if that is all
of it. -/
theorem exists_getLast? (h : Scanned t rest) (hstray : t.kind ≠ .stray)
    (hsilent : t.isSilent = false) :
    ∃ u d, t.text = u ++ [d] ∧ Text.isBlank d = false ∧ (EndsToken d → u = []) := by
  have hlast : ∃ u d, t.text = u ++ [d] := by
    exact ⟨t.text.dropLast, t.text.getLast h.text_ne_nil,
      (List.dropLast_concat_getLast h.text_ne_nil).symm⟩
  obtain ⟨u, d, htext⟩ := hlast
  refine ⟨u, d, htext, ?_⟩
  by_cases hstring : t.kind = .string
  · have hscan := h.scan_eq hstray
    rw [hstring] at hscan
    obtain ⟨-, -, mark, hmark, hd⟩ := string_bounds hscan
    rw [List.take_left, htext, List.getLast?_concat, Option.some.injEq] at hmark
    subst hmark
    refine ⟨?_, fun hends => ?_⟩
    · simp only [isMark, Bool.or_eq_true, beq_iff_eq] at hd
      rcases hd with (rfl | rfl) | rfl <;> decide
    · rw [hends.not_isMark] at hd
      cases hd
  · refine ⟨h.not_isBlank hstray hstring hsilent d (by simp [htext]), fun hends => ?_⟩
    by_contra hu
    exact h.not_endsToken hstray hstring (Token.isSilent_eq_false_iff.mp hsilent).1 htext hu hends

end Scanned

end Scriptorium.Script
