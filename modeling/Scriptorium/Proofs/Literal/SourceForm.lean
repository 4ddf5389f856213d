/-
The source form of a literal is read back, except for three kinds of literals.

These are the empty set and the numbers that are not finite, which are written as calls, and the
least integer, whose magnitude is out of range. One of them at any depth is where reading the
source form stops. Without them it is read as the literal itself, apart from what rounding does to
floating-point numbers.
-/

import Mathlib.Logic.Basic
import Scriptorium.Proofs.Literal.FloatForm
import Scriptorium.Proofs.Literal.Parts

namespace Scriptorium.Literal

open Text (isDigitOf hexValue?)

attribute [local simp] render renderItems renderPairs

/-! ### Integers -/

theorem hexValue?_digitChar : ∀ n < 10, hexValue? (Nat.digitChar n) = some n := by decide

theorem digits_toDigits (n : Nat) : Digits 10 (Nat.toDigits 10 n) n := by
  induction n using Nat.strongRecOn with
  | ind n ih =>
    by_cases h : n < 10
    · rw [Nat.toDigits_of_lt_base h]
      exact .digit (hexValue?_digitChar n h) h
    · have hlast : n % 10 < 10 := Nat.mod_lt n (by decide)
      have hmore := Digits.next (k := 0) (ih (n / 10) (by omega))
        (hexValue?_digitChar (n % 10) hlast) hlast
      rw [Nat.toDigits_of_base_le (by decide) (by omega)]
      rwa [show n / 10 * 10 + n % 10 = n by omega] at hmore

/-- All integers but the least are spelled by their source form. -/
theorem integer_renderInt {n : Int64} (h : n ≠ Int64.minValue) :
    Integer (renderInt n) n.toInt := by
  have hlow := Int64.le_toInt n
  have hhigh := Int64.toInt_lt n
  have hne : n.toInt ≠ Int64.minValue.toInt := fun heq => h (Int64.toInt_inj.mp heq)
  have hmin : Int64.minValue.toInt = -0x8000000000000000 := by decide
  have hnumeral := Numeral.decimal (digits_toDigits n.toInt.natAbs)
  have hbound : n.toInt.natAbs < intBound := by
    unfold intBound
    omega
  by_cases hneg : n.toInt < 0
  · have hinteger := Integer.minus .nil hnumeral hbound
    rw [show -(n.toInt.natAbs : Int) = n.toInt by omega] at hinteger
    simpa [renderInt, signed, hneg] using hinteger
  · have hinteger := Integer.plain hnumeral hbound
    rw [show (n.toInt.natAbs : Int) = n.toInt by omega] at hinteger
    simpa [renderInt, signed, hneg] using hinteger

/-- The source form of an integer without a sign is its decimal digits. -/
theorem renderInt_ofNat {n : Nat} (h : n < intBound) :
    renderInt (Int64.ofNat n) = Nat.toDigits 10 n := by
  have hvalue : (Int64.ofNat n).toInt = n := Int64.toInt_ofNat_of_lt h
  have hsign : ¬(n : Int) < 0 := by omega
  simp [renderInt, signed, hvalue, hsign]

/-! ### Strings -/

theorem ofDigits_hexByte : ∀ n < 0x80, Text.ofDigits 16 (Text.hexByte n) = n := by decide

theorem all_isDigitOf_hexByte : ∀ n < 0x80, (Text.hexByte n).all (isDigitOf 16) = true := by
  decide

theorem isDigitOf_hexByte {n : Nat} (h : n < 0x80) :
    ∀ c ∈ Text.hexByte n, isDigitOf 16 c = true :=
  List.all_eq_true.mp (all_isDigitOf_hexByte n h)

theorem isQuote_quoteFor (s : List Char) : isQuote (quoteFor s) = true := by
  unfold quoteFor
  split <;> rfl

/-- The source form of a string between its quotation marks. -/
theorem body_escapeChar {quote : Char} (hquote : isQuote quote = true) (s : List Char) :
    Body ⟨false, quote, false⟩ (s.flatMap (escapeChar quote)) s := by
  induction s with
  | nil => exact .nil
  | cons c s ih =>
    rw [List.flatMap_cons]
    unfold escapeChar
    split
    · subst c
      exact .escape rfl (.short (by decide)) ih
    split
    · subst c
      exact .escape rfl (.short (by decide)) ih
    split
    · subst c
      exact .escape rfl (.short (by decide)) ih
    split
    · subst c
      exact .escape rfl (.short (by decide)) ih
    split
    · subst c
      refine .escape rfl (.short ?_) ih
      rcases isQuote_iff.mp hquote with rfl | rfl <;> decide
    split
    · have hc : c.toNat < 0x80 := by omega
      have hletter : ('x', 2) ∈ codeLetters := by decide
      exact .escape rfl
        (.code hletter rfl (isDigitOf_hexByte hc) (ofDigits_hexByte _ hc)) ih
    · exact .plain ‹_› ‹_› (fun h => absurd h ‹_›) ih

theorem pieces_renderStr (s : List Char) : Pieces (renderStr s) s := by
  have hmark : ([], false) ∈ pieceMarks := by decide
  have hquote := isQuote_quoteFor s
  exact .last (.mk hmark hquote (body_escapeChar hquote s))

/-! ### Displays -/

/-- The texts behind the first one, each with a comma and a space before it. -/
def tailOf (texts : List (List Char)) : List Char :=
  texts.flatMap fun text => ',' :: ' ' :: text

theorem commas_cons (text : List Char) (texts : List (List Char)) :
    commas (text :: texts) = text ++ tailOf texts := by
  induction texts generalizing text with
  | nil => simp [commas, tailOf, List.intercalate]
  | cons u texts ih =>
    have h := ih u
    simp only [commas, List.intercalate, tailOf] at h ⊢
    simp [h]

/-- The source form of a display behind its first item. -/
def Display.tail : Display → List Literal → List Char
  | .tuple, [] => [',']
  | _, vs => tailOf (renderItems vs)

theorem Display.tail_ne_nil (vs : List Literal) : Display.tuple.tail vs ≠ [] := by
  cases vs <;> simp [Display.tail, tailOf]

theorem Display.tail_eq (d : Display) {vs : List Literal} (h : vs ≠ []) :
    d.tail vs = tailOf (renderItems vs) := by
  cases vs with
  | nil => exact absurd rfl h
  | cons v vs => cases d <;> rfl

theorem render_display (d : Display) (v : Literal) (vs : List Literal) :
    (d.value (v :: vs)).render = d.opener :: (v.render ++ (d.tail vs ++ [d.closer])) := by
  cases d with
  | list => simp [Display.value, Display.opener, Display.closer, Display.tail, commas_cons]
  | set => simp [Display.value, Display.opener, Display.closer, Display.tail, commas_cons]
  | tuple =>
    cases vs <;>
      simp [Display.value, Display.opener, Display.closer, Display.tail, commas_cons]

theorem render_dict (key v : Literal) (ps : List (Literal × Literal)) :
    (dict ((key, v) :: ps)).render =
      '\x7b' :: (key.render ++ ':' :: ' ' ::
        (v.render ++ (tailOf (renderPairs ps) ++ ['\x7d']))) := by
  simp [commas_cons]

theorem tailOf_renderItems_cons (v : Literal) (vs : List Literal) :
    tailOf (renderItems (v :: vs)) = ',' :: ' ' :: (v.render ++ tailOf (renderItems vs)) := by
  simp [tailOf]

theorem tailOf_renderPairs_cons (key v : Literal) (ps : List (Literal × Literal)) :
    tailOf (renderPairs ((key, v) :: ps)) =
      ',' :: ' ' :: (key.render ++ ':' :: ' ' :: (v.render ++ tailOf (renderPairs ps))) := by
  simp [tailOf]

/-! ### What can be written -/

/-- Nothing in the literal is a floating-point number. -/
def FloatFree (v : Literal) : Prop :=
  ∀ x, .float x ∉ v.parts

/-- Everything in the literal is denoted by some source: there is no empty set in it and not the
least integer. -/
def Writable (v : Literal) : Prop :=
  .set [] ∉ v.parts ∧ .int Int64.minValue ∉ v.parts

theorem parts_display (d : Display) (vs : List Literal) :
    (d.value vs).parts = d.value vs :: partsOfItems vs := by
  cases d <;> simp [Display.value, parts]

theorem FloatFree.of_mem {d : Display} {vs : List Literal} (h : FloatFree (d.value vs))
    {v : Literal} (hv : v ∈ vs) : FloatFree v := by
  intro x hx
  apply h x
  rw [parts_display]
  exact List.mem_cons_of_mem _ (mem_partsOfItems.mpr ⟨v, hv, hx⟩)

theorem FloatFree.of_mem_dict {ps : List (Literal × Literal)} (h : FloatFree (.dict ps))
    {p : Literal × Literal} (hp : p ∈ ps) : FloatFree p.1 ∧ FloatFree p.2 := by
  constructor
  · intro x hx
    apply h x
    rw [parts]
    exact List.mem_cons_of_mem _ (mem_partsOfPairs.mpr ⟨p, hp, .inl hx⟩)
  · intro x hx
    apply h x
    rw [parts]
    exact List.mem_cons_of_mem _ (mem_partsOfPairs.mpr ⟨p, hp, .inr hx⟩)

theorem writable_display {d : Display} {vs : List Literal} :
    Writable (d.value vs) ↔ (d = .set → vs ≠ []) ∧ ∀ v ∈ vs, Writable v := by
  have hset : .set [] = d.value vs ↔ d = .set ∧ vs = [] := by
    cases d <;> simp [Display.value, eq_comm]
  have hint : .int Int64.minValue ≠ d.value vs := by
    cases d <;> simp [Display.value]
  simp only [Writable, parts_display, List.mem_cons, mem_partsOfItems, hset, hint, false_or]
  grind

theorem writable_dict {ps : List (Literal × Literal)} :
    Writable (.dict ps) ↔ ∀ p ∈ ps, Writable p.1 ∧ Writable p.2 := by
  simp only [Writable, parts, List.mem_cons, mem_partsOfPairs, reduceCtorEq, false_or]
  grind

/-- Every floating-point number in the literal is finite. -/
def AllFinite (v : Literal) : Prop :=
  ∀ x, .float x ∈ v.parts → x.isFinite = true

theorem FloatFree.allFinite {v : Literal} (h : FloatFree v) : AllFinite v :=
  fun x hx => absurd hx (h x)

theorem allFinite_display {d : Display} {vs : List Literal} :
    AllFinite (d.value vs) ↔ ∀ v ∈ vs, AllFinite v := by
  have hfloat : ∀ x, .float x ≠ d.value vs := by
    intro x
    cases d <;> simp [Display.value]
  simp only [AllFinite, parts_display, List.mem_cons, mem_partsOfItems, hfloat, false_or]
  grind

theorem allFinite_dict {ps : List (Literal × Literal)} :
    AllFinite (.dict ps) ↔ ∀ p ∈ ps, AllFinite p.1 ∧ AllFinite p.2 := by
  simp only [AllFinite, parts, List.mem_cons, mem_partsOfPairs, reduceCtorEq, false_or]
  grind

/-- What can be written and holds none but finite numbers. -/
def Legible (v : Literal) : Prop :=
  Writable v ∧ AllFinite v

theorem legible_display {d : Display} {vs : List Literal} :
    Legible (d.value vs) ↔ (d = .set → vs ≠ []) ∧ ∀ v ∈ vs, Legible v := by
  simp only [Legible, writable_display, allFinite_display]
  grind

theorem legible_dict {ps : List (Literal × Literal)} :
    Legible (.dict ps) ↔ ∀ p ∈ ps, Legible p.1 ∧ Legible p.2 := by
  simp only [Legible, writable_dict, allFinite_dict]
  grind

/-! ### What may follow a value -/

theorem stops_tailOf (texts : List (List Char)) {rest : List Char} (h : Stops rest) :
    Stops (tailOf texts ++ rest) := by
  cases texts with
  | nil => exact h
  | cons text texts => exact stops_cons rfl

theorem Display.stops_tail (d : Display) (vs : List Literal) {rest : List Char}
    (h : Stops rest) : Stops (d.tail vs ++ rest) := by
  have htexts := stops_tailOf (renderItems vs) h
  cases d with
  | list => exact htexts
  | set => exact htexts
  | tuple =>
    cases vs with
    | nil => exact stops_cons rfl
    | cons v vs => exact htexts

/-! ### Acceptance -/

/-- The source form is read in place of a value, and as the literal itself if there is no
floating-point number in it. -/
def Accepted (v : Literal) : Prop :=
  ∃ w, Reads (.value w) v.render ∧ (FloatFree v → w = v)

theorem accepted_tailOf_renderItems {vs : List Literal} (h : ∀ v ∈ vs, Accepted v) :
    ∃ ws, Reads (.items ws) (tailOf (renderItems vs)) ∧ ((∀ v ∈ vs, FloatFree v) → ws = vs) := by
  induction vs with
  | nil => exact ⟨[], .noItems, fun _ => rfl⟩
  | cons v vs ih =>
    rw [List.forall_mem_cons] at h
    obtain ⟨w, hw, hwEq⟩ := h.1
    obtain ⟨ws, hws, hwsEq⟩ := ih h.2
    refine ⟨w :: ws, ?_, fun hfree => ?_⟩
    · rw [tailOf_renderItems_cons]
      exact hw.spaced.item hws fun d _ => stops_tailOf _ (stops_cons (isPunctuation_closer d))
    · rw [List.forall_mem_cons] at hfree
      rw [hwEq hfree.1, hwsEq hfree.2]

theorem accepted_tailOf_renderPairs {ps : List (Literal × Literal)}
    (h : ∀ p ∈ ps, Accepted p.1 ∧ Accepted p.2) :
    ∃ qs, Reads (.pairs qs) (tailOf (renderPairs ps)) ∧
      ((∀ p ∈ ps, FloatFree p.1 ∧ FloatFree p.2) → qs = ps) := by
  induction ps with
  | nil => exact ⟨[], .noPairs, fun _ => rfl⟩
  | cons p ps ih =>
    obtain ⟨key, v⟩ := p
    rw [List.forall_mem_cons] at h
    obtain ⟨⟨⟨k, hk, hkEq⟩, ⟨w, hw, hwEq⟩⟩, hps⟩ := h
    obtain ⟨qs, hqs, hqsEq⟩ := ih hps
    refine ⟨(k, w) :: qs, ?_, fun hfree => ?_⟩
    · rw [tailOf_renderPairs_cons]
      exact hk.spaced.pair hw.spaced hqs fun _ => stops_tailOf _ (stops_cons rfl)
    · rw [List.forall_mem_cons] at hfree
      rw [hkEq hfree.1.1, hwEq hfree.1.2, hqsEq hfree.2]

theorem accepted_display {d : Display} {vs : List Literal} (hset : d = .set → vs ≠ [])
    (h : ∀ v ∈ vs, Accepted v) : Accepted (d.value vs) := by
  cases vs with
  | nil =>
    cases d with
    | list => exact ⟨_, .empty (d := .list) (by simp) .nil, fun _ => rfl⟩
    | tuple => exact ⟨_, .empty (d := .tuple) (by simp) .nil, fun _ => rfl⟩
    | set => exact absurd rfl (hset rfl)
  | cons v vs =>
    rw [List.forall_mem_cons] at h
    obtain ⟨w, hw, hwEq⟩ := h.1
    have htail : ∃ ws, Reads (.items ws) (d.tail vs) ∧
        ((∀ v ∈ vs, FloatFree v) → ws = vs) := by
      have htexts := accepted_tailOf_renderItems h.2
      cases d with
      | list => exact htexts
      | set => exact htexts
      | tuple =>
        cases vs with
        | nil => exact ⟨[], .commaBehindItems .nil, fun _ => rfl⟩
        | cons w vs => exact htexts
    obtain ⟨ws, hws, hwsEq⟩ := htail
    refine ⟨d.value (w :: ws), ?_, fun hfree => ?_⟩
    · rw [render_display]
      exact hw.bare.display hws (fun _ => d.stops_tail vs (stops_cons (isPunctuation_closer d)))
        (fun htuple => htuple ▸ Display.tail_ne_nil vs)
    · rw [hwEq (hfree.of_mem List.mem_cons_self),
        hwsEq fun u hu => hfree.of_mem (List.mem_cons_of_mem v hu)]

theorem accepted_dict {ps : List (Literal × Literal)}
    (h : ∀ p ∈ ps, Accepted p.1 ∧ Accepted p.2) : Accepted (.dict ps) := by
  cases ps with
  | nil => exact ⟨_, .emptyDict .nil, fun _ => rfl⟩
  | cons p ps =>
    obtain ⟨key, v⟩ := p
    rw [List.forall_mem_cons] at h
    obtain ⟨⟨⟨k, hk, hkEq⟩, ⟨w, hw, hwEq⟩⟩, hps⟩ := h
    obtain ⟨qs, hqs, hqsEq⟩ := accepted_tailOf_renderPairs hps
    refine ⟨.dict ((k, w) :: qs), ?_, fun hfree => ?_⟩
    · rw [render_dict]
      exact hk.bare.dict hw.spaced hqs fun _ => stops_tailOf _ (stops_cons rfl)
    · obtain ⟨hkeyFree, hvFree⟩ := hfree.of_mem_dict List.mem_cons_self
      rw [hkEq hkeyFree, hwEq hvFree,
        hqsEq fun q hq => hfree.of_mem_dict (List.mem_cons_of_mem _ hq)]

/-- The source form of a legible literal is read. -/
theorem accepted_of_legible {v : Literal} : Legible v → Accepted v := by
  induction v using inductionOn with
  | null =>
    intro _
    exact ⟨_, .constant (by decide) rfl, fun _ => rfl⟩
  | bool b =>
    intro _
    cases b
    · exact ⟨_, .constant (by decide) rfl, fun _ => rfl⟩
    · exact ⟨_, .constant (by decide) rfl, fun _ => rfl⟩
  | int n =>
    intro h
    refine ⟨_, .int (integer_renderInt fun hmin => h.1.2 ?_), fun _ => rfl⟩
    rw [hmin]
    exact self_mem_parts _
  | float x =>
    intro h
    exact ⟨_, reads_renderFloat (h.2 x (self_mem_parts _)), fun _ => rfl⟩
  | str s =>
    intro _
    refine ⟨_, .str (pieces_renderStr s.toList), fun _ => ?_⟩
    rw [String.ofList_toList]
  | list items ih =>
    intro h
    obtain ⟨hset, hitems⟩ := (legible_display (d := .list)).mp h
    exact accepted_display (d := .list) hset fun w hw => ih w hw (hitems w hw)
  | tuple items ih =>
    intro h
    obtain ⟨hset, hitems⟩ := (legible_display (d := .tuple)).mp h
    exact accepted_display (d := .tuple) hset fun w hw => ih w hw (hitems w hw)
  | set items ih =>
    intro h
    obtain ⟨hset, hitems⟩ := (legible_display (d := .set)).mp h
    exact accepted_display (d := .set) hset fun w hw => ih w hw (hitems w hw)
  | dict pairs ih =>
    intro h
    have hpairs := legible_dict.mp h
    exact accepted_dict fun p hp =>
      ⟨(ih p hp).1 (hpairs p hp).1, (ih p hp).2 (hpairs p hp).2⟩

/-! ### What stops the reader -/

/-- Where the source form is met in place of a value, reading ends without a literal. -/
def Refused (v : Literal) : Prop :=
  ∀ frames rest, Stops rest → ∃ fault, run .expect frames (v.render ++ rest) = .error fault

theorem refused_of_readAtom {v : Literal} {c : Char} {s : List Char} (hrender : v.render = c :: s)
    (hc : beginsAtom c = true)
    (h : ∀ rest, Stops rest → ∃ fault, readAtom (c :: (s ++ rest)) = .error fault) :
    Refused v := by
  intro frames rest hrest
  obtain ⟨fault, hread⟩ := h rest hrest
  have hsolid := skipTrivia_of_solid (beginsAtom_iff.mp hc).1 (s ++ rest)
  rw [hrender, List.cons_append]
  exact ⟨fault, run_expect_fault hsolid (closing?_of_beginsAtom hc frames)
    (opened?_of_beginsAtom hc) hread⟩

/-- The word before the bracket of a call. -/
theorem takeWhile_call (word : List Char) (hword : word.all Text.isWordChar = true)
    (rest : List Char) : (word ++ '(' :: rest).takeWhile Text.isWordChar = word := by
  refine Text.takeWhile_append (List.all_eq_true.mp hword) ?_
  rintro c ⟨⟩
  decide

/-- The empty set is written as a call of a name, which is no constant. -/
theorem refused_empty_set : Refused (.set []) := by
  refine refused_of_readAtom (c := 's') (s := "et()".toList) rfl (by decide) fun rest _ => ?_
  have hword := takeWhile_call "set".toList (by decide) (')' :: rest)
  have hread : readWord ("set".toList ++ '(' :: ')' :: rest) =
      .error (.notALiteral "set".toList) := by
    simp only [readWord, hword]
    rfl
  exact ⟨_, (readAtom_word (by decide) rfl rfl (by decide)).trans hread⟩

/-- What is not finite is written as a call of a name, with a sign or without one. -/
theorem refused_not_finite {x : Binary64} (h : x.isFinite = false) : Refused (.float x) := by
  have hexponent : (x.exponent == 2047) = true := by
    simpa [Binary64.isFinite] using h
  have hcall : ∃ negative argument,
      (float x).render = signed negative ("float".toList ++ '(' :: argument) := by
    by_cases hfraction : x.fraction = 0
    · refine ⟨x.negative, "'inf')".toList, ?_⟩
      simp [renderFloat, Binary64.isNaN, Binary64.isInfinite, hexponent, hfraction]
    · refine ⟨false, "'nan')".toList, ?_⟩
      simp [renderFloat, Binary64.isNaN, hexponent, hfraction, signed]
  obtain ⟨negative, argument, hrender⟩ := hcall
  cases negative with
  | false =>
    refine refused_of_readAtom (c := 'f') hrender (by decide) fun rest _ => ?_
    have hword := takeWhile_call "float".toList (by decide) (argument ++ rest)
    have hread : readWord ("float".toList ++ '(' :: (argument ++ rest)) =
        .error (.notALiteral "float".toList) := by
      simp only [readWord, hword]
      rfl
    exact ⟨_, (readAtom_word (by decide) rfl rfl (by decide)).trans hread⟩
  | true =>
    refine refused_of_readAtom (c := '-') hrender (by decide) fun rest _ => ?_
    have hword := takeWhile_call "float".toList (by decide) (argument ++ rest)
    have hsplit : DecimalSplit ("float".toList ++ '(' :: (argument ++ rest)) [] [] []
        ("float".toList ++ '(' :: (argument ++ rest)) := ⟨rfl, rfl, rfl, rfl⟩
    have hread : readDecimal ("float".toList ++ '(' :: (argument ++ rest)) =
        .error (.invalidNumber "float".toList) := by
      rw [readDecimal_of_split hsplit, hword]
      rfl
    have hsolid : skipTrivia ("float".toList ++ '(' :: (argument ++ rest)) =
        "float".toList ++ '(' :: (argument ++ rest) := skipTrivia_of_solid (by decide) _
    refine ⟨.invalidNumber "float".toList, ?_⟩
    rw [readAtom_sign (.inr rfl)]
    exact congrArg (Except.map _) ((congrArg readNumeral hsolid).trans hread)

/-- The magnitude of the least integer is out of range. -/
theorem refused_least : Refused (.int Int64.minValue) := by
  have hmin : Int64.minValue.toInt = -0x8000000000000000 := by decide
  have hnumeral := Numeral.decimal (digits_toDigits 0x8000000000000000)
  have hrender : (int Int64.minValue).render = '-' :: Nat.toDigits 10 0x8000000000000000 := by
    rw [render, renderInt, hmin]
    rfl
  refine refused_of_readAtom hrender (by decide) fun rest hrest => ?_
  have hsevers : Severs rest := (hrest.severs .nil).1
  refine ⟨.integerOverflow (Nat.toDigits 10 0x8000000000000000), ?_⟩
  rw [readAtom_sign (Or.inr rfl), readSigned, skipTrivia_numeral hnumeral,
    readNumeral_append hnumeral hsevers, intOf, if_neg (by decide)]
  rfl

theorem run_expect_space (frames : List Frame) (s : List Char) :
    run .expect frames (' ' :: s) = run .expect frames s :=
  run_expect_congr (skipTrivia_append Trivia.space s)

/-- Reading stops at a value of a display, or it passes over the value and stops behind it. -/
theorem fault_at_or_behind {v : Literal} (h : Accepted v ∨ Refused v)
    {frame : Frame} {frames : List Frame} {rest : List Char} (hrest : Stops rest)
    (hbehind : ¬Refused v → ∀ w, ∃ fault, run (.got w) (frame :: frames) rest = .error fault) :
    ∃ fault, run .expect (frame :: frames) (v.render ++ rest) = .error fault := by
  by_cases hv : Refused v
  · exact hv _ rest hrest
  · obtain ⟨w, hreads, _⟩ := h.resolve_right hv
    rw [hreads.bare.padded_inside frame frames hrest]
    exact hbehind hv w

/-- Reading passes over the items in front of the first refused one. -/
theorem refused_tailOf_renderItems {d : Display} {vs : List Literal}
    (h : ∀ v ∈ vs, Accepted v ∨ Refused v) (hex : ∃ v ∈ vs, Refused v)
    {w : Literal} {done : List Literal} {frame : Frame}
    (hnext : frame.after w ',' = .next (d.frame (w :: done))) (frames : List Frame)
    {rest : List Char} (hrest : Stops rest) :
    ∃ fault, run (.got w) (frame :: frames) (tailOf (renderItems vs) ++ rest) = .error fault := by
  induction vs generalizing w done frame with
  | nil =>
    obtain ⟨_, ⟨⟩, _⟩ := hex
  | cons v vs ih =>
    rw [tailOf_renderItems_cons]
    simp only [List.cons_append, List.append_assoc]
    rw [run_got_next (skipTrivia_punctuation rfl _) hnext, run_expect_space]
    rw [List.forall_mem_cons] at h
    simp only [List.mem_cons, exists_eq_or_imp] at hex
    refine fault_at_or_behind h.1 (stops_tailOf _ hrest) fun hv u => ?_
    have hmore := hex.resolve_left hv
    exact ih h.2 hmore (d.frame_after_comma u _)

theorem refused_display {d : Display} {vs : List Literal}
    (h : ∀ v ∈ vs, Accepted v ∨ Refused v) (hex : ∃ v ∈ vs, Refused v) :
    Refused (d.value vs) := by
  intro frames rest _
  cases vs with
  | nil =>
    obtain ⟨_, ⟨⟩, _⟩ := hex
  | cons v vs =>
    rw [render_display]
    simp only [List.cons_append, List.append_assoc, List.nil_append]
    rw [run_open d.opened?_opener]
    rw [List.forall_mem_cons] at h
    simp only [List.mem_cons, exists_eq_or_imp] at hex
    have hcloser : Stops (d.closer :: rest) := stops_cons (isPunctuation_closer d)
    refine fault_at_or_behind h.1 (d.stops_tail vs hcloser) fun hv u => ?_
    have hmore := hex.resolve_left hv
    rw [d.tail_eq (by rintro rfl; simp at hmore)]
    exact refused_tailOf_renderItems h.2 hmore (d.first_after_comma u) frames hcloser

theorem refused_tailOf_renderPairs {ps : List (Literal × Literal)}
    (h : ∀ p ∈ ps, (Accepted p.1 ∨ Refused p.1) ∧
      (Accepted p.2 ∨ Refused p.2))
    (hex : ∃ p ∈ ps, Refused p.1 ∨ Refused p.2) (key w : Literal)
    (done : List (Literal × Literal)) (frames : List Frame) {rest : List Char}
    (hrest : Stops rest) :
    ∃ fault, run (.got w) (.dictValue key done :: frames) (tailOf (renderPairs ps) ++ rest) =
      .error fault := by
  induction ps generalizing key w done with
  | nil =>
    obtain ⟨_, ⟨⟩, _⟩ := hex
  | cons p ps ih =>
    obtain ⟨k, v⟩ := p
    rw [tailOf_renderPairs_cons]
    simp only [List.cons_append, List.append_assoc]
    rw [run_got_next (skipTrivia_punctuation rfl _) rfl, run_expect_space]
    rw [List.forall_mem_cons] at h
    simp only [List.mem_cons, exists_eq_or_imp] at hex
    obtain ⟨⟨hkey, hv⟩, hps⟩ := h
    refine fault_at_or_behind hkey (stops_cons rfl) fun hkeyRead _ => ?_
    rw [run_got_next (skipTrivia_punctuation rfl _) rfl, run_expect_space]
    refine fault_at_or_behind hv (stops_tailOf _ hrest) fun hvRead _ => ?_
    have hmore := hex.resolve_left (not_or.mpr ⟨hkeyRead, hvRead⟩)
    exact ih hps hmore _ _ _

theorem refused_dict {ps : List (Literal × Literal)}
    (h : ∀ p ∈ ps, (Accepted p.1 ∨ Refused p.1) ∧
      (Accepted p.2 ∨ Refused p.2))
    (hex : ∃ p ∈ ps, Refused p.1 ∨ Refused p.2) : Refused (.dict ps) := by
  intro frames rest _
  cases ps with
  | nil =>
    obtain ⟨_, ⟨⟩, _⟩ := hex
  | cons p ps =>
    obtain ⟨key, v⟩ := p
    rw [render_dict]
    simp only [List.cons_append, List.append_assoc, List.nil_append]
    rw [run_open rfl]
    rw [List.forall_mem_cons] at h
    simp only [List.mem_cons, exists_eq_or_imp] at hex
    obtain ⟨⟨hkey, hv⟩, hps⟩ := h
    have hcloser : Stops ('\x7d' :: rest) := stops_cons rfl
    refine fault_at_or_behind hkey (stops_cons rfl) fun hkeyRead _ => ?_
    rw [run_got_next (skipTrivia_punctuation rfl _) rfl, run_expect_space]
    refine fault_at_or_behind hv (stops_tailOf _ hcloser) fun hvRead _ => ?_
    have hmore := hex.resolve_left (not_or.mpr ⟨hkeyRead, hvRead⟩)
    exact refused_tailOf_renderPairs hps hmore _ _ [] frames hcloser

/-! ### Round trip -/

/-- What an induction over literals assumes of the parts of a display. -/
theorem accepted_or_refused {v : Literal} (h : ¬Legible v → Refused v) :
    Accepted v ∨ Refused v := by
  by_cases hlegible : Legible v
  · exact .inl (accepted_of_legible hlegible)
  · exact .inr (h hlegible)

theorem refused_display_of_not_legible {d : Display} {vs : List Literal}
    (ih : ∀ v ∈ vs, ¬Legible v → Refused v) (h : ¬Legible (d.value vs)) :
    Refused (d.value vs) := by
  by_cases hempty : d = .set ∧ vs = []
  · obtain ⟨rfl, rfl⟩ := hempty
    exact refused_empty_set
  · have hset : d = .set → vs ≠ [] := fun hd hvs => hempty ⟨hd, hvs⟩
    have hex : ∃ v ∈ vs, ¬Legible v := by
      have hnot : ¬∀ v ∈ vs, Legible v := fun hall => h (legible_display.mpr ⟨hset, hall⟩)
      simpa only [not_forall, exists_prop] using hnot
    apply refused_display
    · intro v hv
      exact accepted_or_refused (ih v hv)
    · obtain ⟨v, hv, hnot⟩ := hex
      exact ⟨v, hv, ih v hv hnot⟩

/-- What is not legible is refused. -/
theorem refused_of_not_legible {v : Literal} : ¬Legible v → Refused v := by
  induction v using inductionOn with
  | null =>
    intro h
    simp [Legible, Writable, AllFinite, parts] at h
  | bool b =>
    intro h
    simp [Legible, Writable, AllFinite, parts] at h
  | int n =>
    intro h
    obtain rfl : Int64.minValue = n := by
      simpa [Legible, Writable, AllFinite, parts] using h
    exact refused_least
  | float x =>
    intro h
    have hx : x.isFinite = false := by
      simpa [Legible, Writable, AllFinite, parts] using h
    exact refused_not_finite hx
  | str s =>
    intro h
    simp [Legible, Writable, AllFinite, parts] at h
  | list items ih => exact refused_display_of_not_legible (d := .list) ih
  | tuple items ih => exact refused_display_of_not_legible (d := .tuple) ih
  | set items ih => exact refused_display_of_not_legible (d := .set) ih
  | dict pairs ih =>
    intro h
    have hex : ∃ p ∈ pairs, ¬(Legible p.1 ∧ Legible p.2) := by
      have hnot : ¬∀ p ∈ pairs, Legible p.1 ∧ Legible p.2 := mt legible_dict.mpr h
      simpa only [not_forall, exists_prop] using hnot
    apply refused_dict
    · intro p hp
      exact ⟨accepted_or_refused (ih p hp).1, accepted_or_refused (ih p hp).2⟩
    · obtain ⟨p, hp, hnot⟩ := hex
      refine ⟨p, hp, ?_⟩
      rcases not_and_or.mp hnot with hnot | hnot
      · exact .inl ((ih p hp).1 hnot)
      · exact .inr ((ih p hp).2 hnot)

theorem parse_of_legible {v : Literal} (h : Legible v) :
    ∃ w, parse v.text = .ok w ∧ (FloatFree v → w = v) := by
  obtain ⟨w, hreads, heq⟩ := accepted_of_legible h
  refine ⟨w, parse_of_reads ?_, heq⟩
  rw [text, String.toList_ofList]
  exact hreads.bare

theorem parse_of_not_legible {v : Literal} (h : ¬Legible v) :
    ∃ error, parse v.text = .error error := by
  obtain ⟨fault, hrun⟩ := refused_of_not_legible h [] [] (by simp [Stops])
  rw [List.append_nil] at hrun
  refine ⟨fault.locate v.render, ?_⟩
  rw [parse, text, String.toList_ofList]
  simp only [hrun]

/-- **Acceptance of the source form.** The source form of a literal, however deep, is read exactly
if the literal is legible. -/
theorem exists_parse_text_iff {v : Literal} : (∃ w, parse v.text = .ok w) ↔ Legible v := by
  constructor
  · rintro ⟨w, hw⟩
    by_contra h
    obtain ⟨error, hparse⟩ := parse_of_not_legible h
    rw [hw] at hparse
    cases hparse
  · intro h
    obtain ⟨w, hparse, _⟩ := parse_of_legible h
    exact ⟨w, hparse⟩

theorem parse_of_writable {v : Literal} (hfloat : FloatFree v) (h : Writable v) :
    parse v.text = .ok v := by
  obtain ⟨w, hparse, heq⟩ := parse_of_legible ⟨h, hfloat.allFinite⟩
  rwa [heq hfloat] at hparse

/-- **Round trip of the source form.** A literal without floating-point numbers, however deep,
has a source form that is read exactly if the literal can be written, and then it is read as the
literal. -/
theorem parse_text_iff {v : Literal} (h : FloatFree v) :
    ((∃ w, parse v.text = .ok w) ↔ Writable v) ∧ ∀ w, parse v.text = .ok w → w = v := by
  have hiff : (∃ w, parse v.text = .ok w) ↔ Writable v := by
    rw [exists_parse_text_iff, Legible]
    exact and_iff_left h.allFinite
  refine ⟨hiff, ?_⟩
  intro w hw
  rw [parse_of_writable h (hiff.mp ⟨w, hw⟩)] at hw
  exact (Except.ok.inj hw).symm

theorem parse_text_of_nested :
    FloatFree (.tuple [.dict [(.str "it's", .set [.int (-3), .null])]]) ∧
      ∃ w, parse (text (.tuple [.dict [(.str "it's", .set [.int (-3), .null])]])) = .ok w := by
  have hfloat : FloatFree (.tuple [.dict [(.str "it's", .set [.int (-3), .null])]]) := by
    intro x
    simp [parts, partsOfItems, partsOfPairs]
  have hwritable : Writable (.tuple [.dict [(.str "it's", .set [.int (-3), .null])]]) := by
    have hne : Int64.minValue ≠ -3 := by decide
    simp [Writable, parts, partsOfItems, partsOfPairs, hne]
  exact ⟨hfloat, (parse_text_iff hfloat).1.mpr hwritable⟩

end Scriptorium.Literal
