/-
Which characters of a text stand outside its brackets and strings, and what the source form of a
literal shows there.

A scanner counts the open brackets and knows the string it is in. The source form of a literal
leaves the scanner where it was, shows no comma and no equals sign outside brackets and strings,
and stays in one line, whatever the strings in the literal hold (`enclosed_render`).
-/

import Scriptorium.Proofs.Literal.SourceForm

namespace Scriptorium.Literal

/-! ### The scanner -/

/-- A bracket that opens. -/
def isOpening (c : Char) : Bool :=
  c == '(' || c == '[' || c == '\x7b'

/-- A bracket that closes. -/
def isClosing (c : Char) : Bool :=
  c == ')' || c == ']' || c == '\x7d'

/-- Neither a bracket nor a quotation mark. -/
def isPlain (c : Char) : Bool :=
  !isQuote c && !isOpening c && !isClosing c

/-- Where a scanner is in a text. -/
inductive Place where
  /-- Outside all strings, inside so many brackets. -/
  | code (depth : Nat)
  /-- In a string with the given quotation mark. -/
  | quoted (quote : Char) (depth : Nat)
  /-- In a string, right behind a backslash. -/
  | escaped (quote : Char) (depth : Nat)
  /-- Behind a bracket that closes nothing. -/
  | lost
deriving DecidableEq

namespace Place

/-- The place behind one more character. -/
def step : Place → Char → Place
  | .code depth, c =>
    if isQuote c then .quoted c depth
    else if isOpening c then .code (depth + 1)
    else if isClosing c then
      match depth with
      | 0 => .lost
      | outer + 1 => .code outer
    else .code depth
  | .quoted quote depth, c =>
    if c = '\\' then .escaped quote depth
    else if c = quote then .code depth
    else .quoted quote depth
  | .escaped quote depth, _ => .quoted quote depth
  | .lost, _ => .lost

/-- The place behind a text. -/
def behind (p : Place) (s : List Char) : Place :=
  s.foldl step p

/-- The characters of a text that are met outside brackets and strings. -/
def outside (p : Place) : List Char → List Char
  | [] => []
  | c :: s =>
    if p = .code 0 then c :: (p.step c).outside s
    else (p.step c).outside s

/-- Cuts a text at every `sep` outside brackets and strings. -/
def splitOutside (sep : Char) (p : Place) : List Char → List (List Char)
  | [] => [[]]
  | c :: s =>
    if p = .code 0 ∧ c = sep then [] :: splitOutside sep p s
    else
      match splitOutside sep (p.step c) s with
      | [] => [[c]]
      | piece :: rest => (c :: piece) :: rest

variable {p : Place} {sep : Char} {s : List Char}

@[simp] theorem behind_nil (p : Place) : p.behind [] = p := rfl

@[simp] theorem behind_cons (p : Place) (c : Char) (s : List Char) :
    p.behind (c :: s) = (p.step c).behind s := rfl

@[simp] theorem behind_append (p : Place) (s t : List Char) :
    p.behind (s ++ t) = (p.behind s).behind t := by
  simp [behind]

@[simp] theorem outside_nil (p : Place) : p.outside [] = [] := rfl

theorem outside_cons (p : Place) (c : Char) (s : List Char) :
    p.outside (c :: s) = p.outside [c] ++ (p.step c).outside s := by
  simp only [outside]
  split <;> rfl

theorem outside_append (p : Place) (s t : List Char) :
    p.outside (s ++ t) = p.outside s ++ (p.behind s).outside t := by
  induction s generalizing p with
  | nil => rfl
  | cons c s ih =>
    rw [List.cons_append, outside_cons, ih, outside_cons p c s, List.append_assoc]
    rfl

/-- Inside brackets or a string nothing is met outside. -/
theorem outside_cons_of_ne (h : p ≠ .code 0) (c : Char) (s : List Char) :
    p.outside (c :: s) = (p.step c).outside s := by
  simp [outside, h]

theorem step_of_isPlain {c : Char} (h : isPlain c = true) (depth : Nat) :
    (code depth).step c = .code depth := by
  simp only [isPlain, Bool.and_eq_true, Bool.not_eq_true'] at h
  simp [step, h]

theorem step_of_isQuote {c : Char} (h : isQuote c = true) (depth : Nat) :
    (code depth).step c = .quoted c depth := by
  simp [step, h]

theorem step_of_isOpening {c : Char} (h : isOpening c = true) (depth : Nat) :
    (code depth).step c = .code (depth + 1) := by
  simp only [isOpening, Bool.or_eq_true, beq_iff_eq] at h
  rcases h with (rfl | rfl) | rfl <;> rfl

theorem step_of_isClosing {c : Char} (h : isClosing c = true) (depth : Nat) :
    (code (depth + 1)).step c = .code depth := by
  simp only [isClosing, Bool.or_eq_true, beq_iff_eq] at h
  rcases h with (rfl | rfl) | rfl <;> rfl

/-! ### Cutting -/

/-- A character that is no separator outside goes to the first piece of what follows. -/
theorem splitOutside_cons {c : Char} {s piece : List Char} {pieces : List (List Char)}
    (h : sep ∉ p.outside [c]) (hs : (p.step c).splitOutside sep s = piece :: pieces) :
    p.splitOutside sep (c :: s) = (c :: piece) :: pieces := by
  have hnot : ¬(p = .code 0 ∧ c = sep) := by
    rintro ⟨rfl, rfl⟩
    simp [outside] at h
  simp [splitOutside, hnot, hs]

theorem splitOutside_of_not_mem (h : sep ∉ p.outside s) : p.splitOutside sep s = [s] := by
  induction s generalizing p with
  | nil => rfl
  | cons c s ih =>
    rw [outside_cons, List.mem_append, not_or] at h
    exact splitOutside_cons h.1 (ih h.2)

/-- A text without the separator outside is the first piece. -/
theorem splitOutside_append (h : sep ∉ p.outside s) (hbehind : p.behind s = .code 0)
    (rest : List Char) :
    p.splitOutside sep (s ++ sep :: rest) = s :: (code 0).splitOutside sep rest := by
  induction s generalizing p with
  | nil =>
    rw [behind_nil] at hbehind
    simp [splitOutside, hbehind]
  | cons c s ih =>
    rw [outside_cons, List.mem_append, not_or] at h
    exact splitOutside_cons h.1 (ih h.2 hbehind)

end Place

/-! ### Texts that leave the scanner where it was -/

/-- A text in one line that leaves the scanner where it was and, inside brackets, does not come
out of them. -/
structure Balanced (s : List Char) : Prop where
  behind : ∀ depth, (Place.code depth).behind s = .code depth
  inside : ∀ depth, (Place.code (depth + 1)).outside s = []
  line : ∀ c ∈ s, c ≠ '\n' ∧ c ≠ '\r'

/-- A balanced text that shows no comma and no equals sign outside brackets and strings. -/
structure Enclosed (s : List Char) : Prop extends Balanced s where
  outside : ∀ c ∈ (Place.code 0).outside s, c ≠ ',' ∧ c ≠ '='

theorem ne_of_not_plain {c : Char} (h : isPlain c = false) :
    (c ≠ '\n' ∧ c ≠ '\r') ∧ c ≠ ',' ∧ c ≠ '=' := by
  refine ⟨⟨?_, ?_⟩, ?_, ?_⟩ <;>
    · rintro rfl
      exact absurd h (by decide)

/-- A text between an opening and a closing mark shows only the opening one, if it stays in the
places that the marks lead to and back from, and nothing is outside there. -/
theorem Enclosed.between {place : Nat → Place} {opening closing : Char} {s : List Char}
    (hopening : ∀ depth, (Place.code depth).step opening = place depth)
    (hclosing : ∀ depth, (place depth).step closing = .code depth)
    (hinner : ∀ depth, place depth ≠ .code 0)
    (hbehind : ∀ depth, (place depth).behind s = place depth)
    (houtside : ∀ depth, (place depth).outside s = [])
    (hline : ∀ c ∈ s, c ≠ '\n' ∧ c ≠ '\r')
    (hmark : isPlain opening = false) (hmark' : isPlain closing = false) :
    Enclosed (opening :: (s ++ [closing])) := by
  have hinside (depth : Nat) : (place depth).outside (s ++ [closing]) = [] := by
    rw [Place.outside_append, houtside, hbehind, Place.outside_cons_of_ne (hinner depth)]
    rfl
  refine ⟨⟨?behind, ?inside, ?line⟩, ?outside⟩
  case behind =>
    intro depth
    rw [Place.behind_cons, hopening, Place.behind_append, hbehind, Place.behind_cons, hclosing,
      Place.behind_nil]
  case inside =>
    intro depth
    rw [Place.outside_cons_of_ne (by simp), hopening, hinside]
  case line =>
    rw [List.forall_mem_cons, List.forall_mem_append, List.forall_mem_singleton]
    exact ⟨(ne_of_not_plain hmark).1, hline, (ne_of_not_plain hmark').1⟩
  case outside =>
    intro c hc
    rw [Place.outside_cons, hopening, hinside, List.append_nil] at hc
    rw [List.mem_singleton.mp hc]
    exact (ne_of_not_plain hmark).2

namespace Balanced

variable {s t : List Char}

theorem nil : Balanced [] where
  behind _ := rfl
  inside _ := rfl
  line := by simp

theorem cons {c : Char} (hc : isPlain c = true) (hline : c ≠ '\n' ∧ c ≠ '\r')
    (h : Balanced s) : Balanced (c :: s) where
  behind depth := by rw [Place.behind_cons, Place.step_of_isPlain hc, h.behind]
  inside depth := by
    rw [Place.outside_cons_of_ne (by simp), Place.step_of_isPlain hc, h.inside]
  line := by
    rw [List.forall_mem_cons]
    exact ⟨hline, h.line⟩

/-- A separator with the space behind it. -/
theorem spaced {c : Char} (hc : isPlain c = true) (hline : c ≠ '\n' ∧ c ≠ '\r')
    (h : Balanced s) : Balanced (c :: ' ' :: s) :=
  .cons hc hline (.cons (by decide) (by decide) h)

theorem append (hs : Balanced s) (ht : Balanced t) : Balanced (s ++ t) where
  behind depth := by rw [Place.behind_append, hs.behind, ht.behind]
  inside depth := by
    rw [Place.outside_append, hs.inside, hs.behind, ht.inside, List.append_nil]
  line := by
    rw [List.forall_mem_append]
    exact ⟨hs.line, ht.line⟩

/-- A balanced text in brackets shows only the opening one. -/
theorem bracketed (h : Balanced s) {opening closing : Char}
    (hopening : isOpening opening = true) (hclosing : isClosing closing = true) :
    Enclosed (opening :: (s ++ [closing])) :=
  .between (Place.step_of_isOpening hopening) (Place.step_of_isClosing hclosing) (by simp)
    (fun depth => h.behind (depth + 1)) h.inside h.line (by simp [isPlain, hopening])
    (by simp [isPlain, hclosing])

end Balanced

/-! ### Plain texts -/

/-- The brackets, the quotation marks, the separators of a signature and the ends of a line. -/
def marks : List Char :=
  ['(', ')', '[', ']', '\x7b', '\x7d', '"', '\'', ',', '=', '\n', '\r']

theorem isPlain_of_not_mem {c : Char} (h : c ∉ marks) : isPlain c = true := by
  simp only [marks, List.mem_cons, List.not_mem_nil, or_false, not_or] at h
  simp [isPlain, isQuote, isOpening, isClosing, h]

/-- A text without marks is met by the scanner as it stands. -/
theorem Enclosed.of_unmarked {s : List Char} (h : ∀ c ∈ s, c ∉ marks) : Enclosed s := by
  induction s with
  | nil => exact ⟨.nil, by simp⟩
  | cons c s ih =>
    rw [List.forall_mem_cons] at h
    have hplain := isPlain_of_not_mem h.1
    have hmarks := h.1
    simp only [marks, List.mem_cons, List.not_mem_nil, or_false, not_or] at hmarks
    refine ⟨.cons hplain (by simp [hmarks]) (ih h.2).toBalanced, ?_⟩
    rw [Place.outside_cons, Place.step_of_isPlain hplain, List.forall_mem_append]
    exact ⟨by simp [Place.outside, hmarks], (ih h.2).outside⟩

theorem Enclosed.append {s t : List Char} (hs : Enclosed s) (ht : Enclosed t) :
    Enclosed (s ++ t) where
  toBalanced := hs.toBalanced.append ht.toBalanced
  outside := by
    rw [Place.outside_append, hs.behind, List.forall_mem_append]
    exact ⟨hs.outside, ht.outside⟩

/-- A text without marks, and then a text in parentheses. -/
theorem Enclosed.call {f s : List Char} (hf : ∀ c ∈ f, c ∉ marks) (h : Balanced s) :
    Enclosed (f ++ '(' :: (s ++ [')'])) :=
  (Enclosed.of_unmarked hf).append (h.bracketed rfl rfl)

/-! ### Strings -/

/-- A text in one line that leaves the scanner in a string where it was. -/
structure Within (quote : Char) (s : List Char) : Prop where
  behind : ∀ depth, (Place.quoted quote depth).behind s = .quoted quote depth
  outside : ∀ depth, (Place.quoted quote depth).outside s = []
  line : ∀ c ∈ s, c ≠ '\n' ∧ c ≠ '\r'

namespace Within

variable {quote c : Char} {s t : List Char}

theorem nil : Within quote [] where
  behind _ := rfl
  outside _ := rfl
  line := by simp

theorem append (hs : Within quote s) (ht : Within quote t) : Within quote (s ++ t) where
  behind depth := by rw [Place.behind_append, hs.behind, ht.behind]
  outside depth := by
    rw [Place.outside_append, hs.outside, hs.behind, ht.outside, List.append_nil]
  line := by
    rw [List.forall_mem_append]
    exact ⟨hs.line, ht.line⟩

theorem plain (hslash : c ≠ '\\') (hquote : c ≠ quote) (hline : c ≠ '\n' ∧ c ≠ '\r') :
    Within quote [c] where
  behind depth := by simp [Place.step, hslash, hquote]
  outside depth := by simp [Place.outside]
  line := by simpa using hline

theorem escaped (hline : c ≠ '\n' ∧ c ≠ '\r') : Within quote ['\\', c] where
  behind depth := by simp [Place.step]
  outside depth := by simp [Place.outside, Place.step]
  line := by simpa using hline

theorem hexByte (hquote : isQuote quote = true) {n : Nat} (h : n < 0x80) :
    Within quote (Text.hexByte n) := by
  have hdigit : ∀ d ∈ Text.hexByte n, Within quote [d] := by
    intro d hd
    have hhex := isDigitOf_hexByte h d hd
    refine plain ?_ ?_ ⟨?_, ?_⟩
    · rintro rfl
      cases hhex
    · rintro rfl
      rcases isQuote_iff.mp hquote with rfl | rfl <;> cases hhex
    · rintro rfl
      cases hhex
    · rintro rfl
      cases hhex
  simp only [Text.hexByte, List.forall_mem_cons] at hdigit
  exact hdigit.1.append hdigit.2.1

/-- What a string writes for a character stays in the string. -/
theorem escapeChar (hquote : isQuote quote = true) (c : Char) :
    Within quote (escapeChar quote c) := by
  unfold Literal.escapeChar
  split
  · exact escaped (by decide)
  split
  · exact escaped (by decide)
  split
  · exact escaped (by decide)
  split
  · exact escaped (by decide)
  split
  · exact escaped ⟨‹_›, ‹_›⟩
  split
  · have hc : c.toNat < 0x80 := by omega
    exact (escaped (by decide)).append (hexByte hquote hc)
  · exact plain ‹_› ‹_› ⟨‹_›, ‹_›⟩

theorem flatMap_escapeChar (hquote : isQuote quote = true) (s : List Char) :
    Within quote (s.flatMap (Literal.escapeChar quote)) := by
  induction s with
  | nil => exact nil
  | cons c s ih => exact (escapeChar hquote c).append ih

/-- A text between the quotation marks shows only the opening one. -/
theorem quoted (h : Within quote s) (hquote : isQuote quote = true) :
    Enclosed (quote :: (s ++ [quote])) := by
  have hclosing (depth : Nat) : (Place.quoted quote depth).step quote = .code depth := by
    simp [Place.step, (backslash_ne_of_isQuote hquote).symm]
  have hmark : isPlain quote = false := by simp [isPlain, hquote]
  exact .between (Place.step_of_isQuote hquote) hclosing (by simp) h.behind h.outside h.line
    hmark hmark

end Within

theorem enclosed_renderStr (s : List Char) : Enclosed (renderStr s) := by
  have hquote := isQuote_quoteFor s
  exact (Within.flatMap_escapeChar hquote s).quoted hquote

/-! ### Numbers -/

/-- A character of numbers. -/
def isNumberChar (c : Char) : Bool :=
  c.isDigit || c == '.' || c == 'e' || c == '+' || c == '-'

theorem not_mem_marks_of_isNumberChar {c : Char} (h : isNumberChar c = true) : c ∉ marks := by
  have hnone : marks.any isNumberChar = false := by decide
  intro hmem
  exact List.any_eq_false.mp hnone c hmem h

theorem isNumberChar_of_isDigit {c : Char} (h : c.isDigit = true) : isNumberChar c = true := by
  simp [isNumberChar, h]

theorem isNumberChar_of_mem_toDigits {n : Nat} {c : Char} (h : c ∈ Nat.toDigits 10 n) :
    isNumberChar c = true :=
  isNumberChar_of_isDigit (Nat.isDigit_of_mem_toDigits (by decide) (by decide) h)

theorem isNumberChar_of_mem_pointed {digits : List Char} {k : Int} {c : Char}
    (h : c ∈ Decimal.pointed digits k) : c ∈ digits ∨ isNumberChar c = true := by
  have hzero : isNumberChar '0' = true := rfl
  have hpoint : isNumberChar '.' = true := rfl
  unfold Decimal.pointed at h
  split at h
  · simp only [List.mem_cons, List.mem_append, List.mem_replicate] at h
    rcases h with rfl | rfl | ⟨_, rfl⟩ | h
    · exact .inr hzero
    · exact .inr hpoint
    · exact .inr hzero
    · exact .inl h
  · dsimp only at h
    split at h
    · simp only [List.mem_cons, List.mem_append] at h
      rcases h with h | rfl | h
      · exact .inl (List.mem_of_mem_take h)
      · exact .inr hpoint
      · exact .inl (List.mem_of_mem_drop h)
    · simp only [List.mem_cons, List.mem_append, List.mem_replicate, List.not_mem_nil,
        or_false] at h
      rcases h with (h | ⟨_, rfl⟩) | rfl | rfl
      · exact .inl h
      · exact .inr hzero
      · exact .inr hpoint
      · exact .inr hzero

theorem isNumberChar_of_mem_exponentText {style : Decimal.Layout} {e : Int} {c : Char}
    (h : c ∈ Decimal.exponentText style e) : isNumberChar c = true := by
  have hsign : ∀ c ∈ (if e < 0 then ['-'] else if style.plusSign then ['+'] else []),
      isNumberChar c = true := by
    split
    · simp [isNumberChar]
    split <;> simp [isNumberChar]
  simp only [Decimal.exponentText, List.mem_append, List.mem_replicate] at h
  rcases h with (h | ⟨_, rfl⟩) | h
  · exact hsign c h
  · rfl
  · exact isNumberChar_of_mem_toDigits h

theorem isNumberChar_of_mem_scientific {style : Decimal.Layout} {digits : List Char} {e : Int}
    {c : Char} (h : c ∈ Decimal.scientific style digits e) :
    c ∈ digits ∨ isNumberChar c = true := by
  match digits with
  | [] => cases h
  | [d] =>
    simp only [Decimal.scientific, List.mem_cons] at h
    rcases h with rfl | rfl | h
    · exact .inl List.mem_cons_self
    · exact .inr rfl
    · exact .inr (isNumberChar_of_mem_exponentText h)
  | d :: d' :: ds =>
    simp only [Decimal.scientific, List.mem_cons, List.mem_append] at h
    rcases h with rfl | rfl | (h | h) | rfl | h
    · exact .inl List.mem_cons_self
    · exact .inr rfl
    · simp [h]
    · simp [h]
    · exact .inr rfl
    · exact .inr (isNumberChar_of_mem_exponentText h)

theorem isNumberChar_of_mem_text {style : Decimal.Layout} {d : Decimal} {c : Char}
    (h : c ∈ d.text style) : isNumberChar c = true := by
  have hdigits : c ∈ Nat.toDigits 10 d.digits ∨ isNumberChar c = true → isNumberChar c = true :=
    fun h => h.elim isNumberChar_of_mem_toDigits id
  unfold Decimal.text at h
  dsimp only at h
  split at h
  · have hzero : ['0', '.', '0'].all isNumberChar = true := by decide
    exact List.all_eq_true.mp hzero c h
  split at h
  · exact hdigits (isNumberChar_of_mem_pointed h)
  · exact hdigits (isNumberChar_of_mem_scientific h)

theorem enclosed_signed {s : List Char} (h : Enclosed s) (negative : Bool) :
    Enclosed (signed negative s) := by
  unfold signed
  split
  · have hminus : Enclosed ['-'] := .of_unmarked (by simp [marks])
    exact hminus.append h
  · exact h

theorem enclosed_renderInt (n : Int64) : Enclosed (renderInt n) := by
  apply enclosed_signed
  apply Enclosed.of_unmarked
  intro c hc
  exact not_mem_marks_of_isNumberChar (isNumberChar_of_mem_toDigits hc)

/-- A call of `float` with a name for what no digits write. -/
theorem enclosed_float (s : List Char) :
    Enclosed ("float".toList ++ '(' :: (renderStr s ++ [')'])) :=
  .call (by simp [marks]) (enclosed_renderStr s).toBalanced

theorem enclosed_renderFloat (x : Binary64) : Enclosed (renderFloat x) := by
  unfold renderFloat
  split
  · exact enclosed_float "nan".toList
  split
  · exact enclosed_signed (enclosed_float "inf".toList) x.negative
  · apply enclosed_signed
    apply Enclosed.of_unmarked
    intro c hc
    exact not_mem_marks_of_isNumberChar (isNumberChar_of_mem_text hc)

/-! ### Displays -/

theorem balanced_tailOf_renderItems {vs : List Literal} (h : ∀ v ∈ vs, Enclosed v.render) :
    Balanced (tailOf (renderItems vs)) := by
  induction vs with
  | nil => exact .nil
  | cons v vs ih =>
    rw [List.forall_mem_cons] at h
    rw [tailOf_renderItems_cons]
    apply Balanced.spaced (by decide) (by decide)
    exact h.1.toBalanced.append (ih h.2)

theorem balanced_tailOf_renderPairs {ps : List (Literal × Literal)}
    (h : ∀ p ∈ ps, Enclosed p.1.render ∧ Enclosed p.2.render) :
    Balanced (tailOf (renderPairs ps)) := by
  induction ps with
  | nil => exact .nil
  | cons p ps ih =>
    obtain ⟨key, v⟩ := p
    rw [List.forall_mem_cons] at h
    obtain ⟨⟨hkey, hv⟩, hps⟩ := h
    rw [tailOf_renderPairs_cons]
    apply Balanced.spaced (by decide) (by decide)
    apply hkey.toBalanced.append
    apply Balanced.spaced (by decide) (by decide)
    exact hv.toBalanced.append (ih hps)

theorem isOpening_opener (d : Display) : isOpening d.opener = true := by
  cases d <;> rfl

theorem isClosing_closer (d : Display) : isClosing d.closer = true := by
  cases d <;> rfl

theorem enclosed_display (d : Display) {vs : List Literal} (h : ∀ v ∈ vs, Enclosed v.render) :
    Enclosed (d.value vs).render := by
  cases vs with
  | nil =>
    cases d with
    | list => exact Balanced.nil.bracketed rfl rfl
    | tuple => exact Balanced.nil.bracketed rfl rfl
    | set => exact .call (f := "set".toList) (by simp [marks]) .nil
  | cons v vs =>
    rw [List.forall_mem_cons] at h
    have htail : Balanced (d.tail vs) := by
      have htexts := balanced_tailOf_renderItems h.2
      cases d with
      | list => exact htexts
      | set => exact htexts
      | tuple =>
        cases vs with
        | nil => exact .cons (by decide) (by decide) .nil
        | cons w vs => exact htexts
    rw [render_display, ← List.append_assoc]
    exact (h.1.toBalanced.append htail).bracketed (isOpening_opener d) (isClosing_closer d)

theorem enclosed_dict {ps : List (Literal × Literal)}
    (h : ∀ p ∈ ps, Enclosed p.1.render ∧ Enclosed p.2.render) : Enclosed (dict ps).render := by
  cases ps with
  | nil => exact Balanced.nil.bracketed rfl rfl
  | cons p ps =>
    obtain ⟨key, v⟩ := p
    rw [List.forall_mem_cons] at h
    obtain ⟨⟨hkey, hv⟩, hps⟩ := h
    have hinner : Balanced (key.render ++ ':' :: ' ' :: (v.render ++ tailOf (renderPairs ps))) := by
      apply hkey.toBalanced.append
      apply Balanced.spaced (by decide) (by decide)
      exact hv.toBalanced.append (balanced_tailOf_renderPairs hps)
    have hrender : (dict ((key, v) :: ps)).render = '\x7b' ::
        ((key.render ++ ':' :: ' ' :: (v.render ++ tailOf (renderPairs ps))) ++ ['\x7d']) := by
      rw [render_dict, List.append_assoc, List.cons_append, List.cons_append, List.append_assoc]
    rw [hrender]
    exact hinner.bracketed rfl rfl

/-- **The source form is closed in itself.** It is one line, leaves a scanner of brackets and
strings where it was, and shows no comma and no equals sign outside them. -/
theorem enclosed_render (v : Literal) : Enclosed v.render := by
  induction v using inductionOn with
  | null => exact .of_unmarked (by simp [render, marks])
  | bool b => cases b <;> exact .of_unmarked (by simp [render, marks])
  | int n => exact enclosed_renderInt n
  | float x => exact enclosed_renderFloat x
  | str s => exact enclosed_renderStr s.toList
  | list items ih => exact enclosed_display .list ih
  | tuple items ih => exact enclosed_display .tuple ih
  | set items ih => exact enclosed_display .set ih
  | dict pairs ih => exact enclosed_dict ih

end Scriptorium.Literal
