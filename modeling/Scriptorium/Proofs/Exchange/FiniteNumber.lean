/-
Where the floating-point numbers of an accepted literal are finite, and what it means for the
literal elsewhere if they are not.

A numeral that is too great is read as infinity. The source form of infinity is refused, and in the
exchange form of a default it is written as null. The numerals of the source decide all three at
once.
-/

import Scriptorium.Command.Extraction
import Scriptorium.Proofs.Exchange.Form
import Scriptorium.Proofs.Literal.Leaf

namespace Scriptorium

/-! ### Null in the exchange form -/

/-- Something in the tree is written as null. -/
inductive Data.WritesNull : Data → Prop where
  | here {d : Data} (style : Json.Style) (depth : Nat) :
      Json.write style depth d = "null".toList → WritesNull d
  | item {d : Data} {items : List Data} : d ∈ items → WritesNull d → WritesNull (.seq items)
  | entry {e : String × Data} {entries : List (String × Data)} :
      e ∈ entries → WritesNull e.2 → WritesNull (.map entries)

namespace Data

theorem write_seq_ne_null (style : Json.Style) (depth : Nat) (items : List Data) :
    Json.write style depth (.seq items) ≠ "null".toList := by
  rw [Json.write, Json.enclose]
  split <;> simp

theorem write_map_ne_null (style : Json.Style) (depth : Nat) (entries : List (String × Data)) :
    Json.write style depth (.map entries) ≠ "null".toList := by
  rw [Json.write, Json.enclose]
  split <;> simp

theorem writesNull_seq {items : List Data} :
    WritesNull (.seq items) ↔ ∃ d ∈ items, WritesNull d := by
  constructor
  · intro h
    cases h with
    | here style depth h => exact absurd h (write_seq_ne_null style depth items)
    | item hd h => exact ⟨_, hd, h⟩
  · rintro ⟨d, hd, h⟩
    exact .item hd h

theorem writesNull_map {entries : List (String × Data)} :
    WritesNull (.map entries) ↔ ∃ e ∈ entries, WritesNull e.2 := by
  constructor
  · intro h
    cases h with
    | here style depth h => exact absurd h (write_map_ne_null style depth entries)
    | entry he h => exact ⟨_, he, h⟩
  · rintro ⟨e, he, h⟩
    exact .entry he h

theorem not_writesNull_str (s : String) : ¬WritesNull (.str s) := by
  rintro ⟨⟩
  rename_i h
  simp [Json.write, Json.strText] at h

theorem not_writesNull_bool (b : Bool) : ¬WritesNull (.bool b) := by
  intro h
  cases h with
  | here style depth h => cases b <;> simp [Json.write] at h

/-- A number begins with a digit or a sign. -/
theorem signed_ne_null (negative : Bool) {s : List Char}
    (h : ∃ c u, s = c :: u ∧ c.isDigit = true) :
    (if negative then ['-'] else []) ++ s ≠ "null".toList := by
  obtain ⟨c, u, rfl, hc⟩ := h
  cases negative with
  | true => simp
  | false =>
    intro heq
    obtain rfl : c = 'n' := (List.cons.inj heq).1
    exact absurd hc (by decide)

theorem not_writesNull_int (n : Int) : ¬WritesNull (.int n) := by
  intro h
  cases h with
  | here style depth h =>
    have hne := signed_ne_null (n < 0) (Decimal.isDigits_toDigits n.natAbs).head
    exact hne (by simpa [Json.write, Json.intText] using h)

/-- Of the numbers those that are not finite are written as null. -/
theorem writesNull_float {x : Binary64} : WritesNull (.float x) ↔ x.isFinite = false := by
  constructor
  · intro h
    cases h with
    | here style depth h =>
      rw [Bool.eq_false_iff]
      intro hfinite
      rw [Json.write, Json.floatText, if_pos hfinite] at h
      exact signed_ne_null x.negative (Decimal.head_text _ _) h
  · intro h
    refine .here Json.compactStyle 0 ?_
    rw [Json.write, Json.floatText, h]
    rfl

end Data

namespace Literal

theorem writesNull_tagged {kind : String} {tree : Data} :
    (tagged kind tree).WritesNull ↔ tree.WritesNull := by
  rw [tagged, Data.writesNull_map]
  simp [Data.not_writesNull_str]

theorem writesNull_display {d : Display} {vs : List Literal} :
    (d.value vs).toData.WritesNull ↔ ∃ v ∈ vs, v.toData.WritesNull := by
  rw [toData_display, writesNull_tagged, Data.writesNull_seq]
  simp

theorem writesNull_dict {ps : List (Literal × Literal)} :
    (dict ps).toData.WritesNull ↔ ∃ p ∈ ps, p.1.toData.WritesNull ∨ p.2.toData.WritesNull := by
  rw [toData_dict, writesNull_tagged, Data.writesNull_seq]
  simp [pairToData, Data.writesNull_seq]

/-- Nothing of a literal is written as null exactly if its floating-point numbers are finite. -/
theorem not_writesNull_toData_iff {v : Literal} : ¬v.toData.WritesNull ↔ AllFinite v := by
  have hdisplay {d : Display} {vs : List Literal}
      (ih : ∀ v ∈ vs, (¬v.toData.WritesNull ↔ AllFinite v)) :
      ¬(d.value vs).toData.WritesNull ↔ AllFinite (d.value vs) := by
    rw [writesNull_display, allFinite_display]
    simp only [not_exists, not_and]
    exact forall₂_congr ih
  induction v using inductionOn with
  | null => simp [toData, Data.writesNull_map, Data.not_writesNull_str, AllFinite, parts]
  | bool b => simp [toData, writesNull_tagged, Data.not_writesNull_bool, AllFinite, parts]
  | int n => simp [toData, writesNull_tagged, Data.not_writesNull_int, AllFinite, parts]
  | float x => simp [toData, writesNull_tagged, Data.writesNull_float, AllFinite, parts]
  | str s => simp [toData, writesNull_tagged, Data.not_writesNull_str, AllFinite, parts]
  | list items ih => exact hdisplay (d := .list) ih
  | tuple items ih => exact hdisplay (d := .tuple) ih
  | set items ih => exact hdisplay (d := .set) ih
  | dict pairs ih =>
    rw [writesNull_dict, allFinite_dict]
    simp only [not_exists, not_and, not_or]
    exact forall₂_congr fun p hp => and_congr (ih p hp).1 (ih p hp).2

/-! ### Sources -/

/-- No floating-point numeral of the source is too great for a finite number. -/
def InRange (source : String) : Prop :=
  ∀ n ∈ floatNumerals source.toList, n.2.value < Decimal.overflow

variable {source : String} {v : Literal}

theorem allFinite_iff_inRange (h : parse source = .ok v) : AllFinite v ↔ InRange source := by
  simp only [AllFinite, InRange, float_mem_parts_iff h]
  constructor
  · intro hfinite n hn
    rw [← Decimal.isFinite_toBinary64_iff n.1]
    exact hfinite _ ⟨n, hn, rfl⟩
  · rintro hrange x ⟨n, hn, rfl⟩
    exact (Decimal.isFinite_toBinary64_iff n.1 n.2).mpr (hrange n hn)

theorem writesNull_literal : (Default.literal v).toData.WritesNull ↔ v.toData.WritesNull := by
  rw [Default.toData, Data.writesNull_map]
  simp [Data.not_writesNull_str]

/-- A default is the literal that its source is read as. -/
theorem not_writesNull_default_iff (h : parse source = .ok v) :
    ¬(Command.defaultOf ⟨source.toList, true⟩).toData.WritesNull ↔ AllFinite v := by
  have hdefault : Command.defaultOf ⟨source.toList, true⟩ = .literal v := by
    simp [Command.defaultOf, h]
  rw [hdefault, writesNull_literal, not_writesNull_toData_iff]

theorem writesNull_parameter_iff (p : Parameter) :
    p.toData.WritesNull ↔ p.default.toData.WritesNull := by
  rw [Parameter.toData, Data.writesNull_map]
  simp [Data.not_writesNull_str]

/-- **Finite numbers.** All floating-point numbers of an accepted literal are finite, its source
form is accepted in turn, and nothing of it is written as null where it is the default of a
parameter: each of these exactly if no floating-point numeral of the source is too great. -/
theorem finite_iff_inRange (h : parse source = .ok v) :
    (AllFinite v ↔ InRange source) ∧
      ((∃ w, parse v.text = .ok w) ↔ InRange source) ∧
      ∀ p : Parameter, p.default = Command.defaultOf ⟨source.toList, true⟩ →
        (¬p.toData.WritesNull ↔ InRange source) := by
  have hfinite := allFinite_iff_inRange h
  refine ⟨hfinite, ?_, ?_⟩
  · rw [exists_parse_text_iff, Legible, hfinite]
    exact and_iff_right (writable_of_parse h)
  · intro p hp
    rw [writesNull_parameter_iff, hp, not_writesNull_default_iff h, hfinite]

theorem finite_iff_inRange_of_pair :
    parse "[1.5, -2e3]" = .ok (.list [.float (Decimal.toBinary64 false ⟨15, -1⟩),
        .float (Decimal.toBinary64 false ⟨2, 3⟩).neg]) ∧
      InRange "[1.5, -2e3]" ∧
      AllFinite (.list [.float (Decimal.toBinary64 false ⟨15, -1⟩),
        .float (Decimal.toBinary64 false ⟨2, 3⟩).neg]) ∧
      ¬(Parameter.mk "range" "list" (Command.defaultOf ⟨"[1.5, -2e3]".toList, true⟩)
        .keywordOnly).toData.WritesNull := by
  have hparse : parse "[1.5, -2e3]" = .ok (.list [.float (Decimal.toBinary64 false ⟨15, -1⟩),
      .float (Decimal.toBinary64 false ⟨2, 3⟩).neg]) := by
    have hpoint : Decimal.Form ['1'] ['.', '5'] [] :=
      ⟨⟨by simp, by simp⟩, .inr ⟨['5'], rfl, by simp, by simp⟩, .inl rfl, by simp⟩
    have hpower : Decimal.Form ['2'] [] ['e', '3'] :=
      ⟨⟨by simp, by simp⟩, .inl rfl, .inr ⟨[], ['3'], rfl, .inl rfl, by simp, by simp⟩, by simp⟩
    have hfirst : Reads (.value (.float (Decimal.toBinary64 false ⟨15, -1⟩))) ['1', '.', '5'] :=
      reads_signed false (c := '1') rfl fun _ hrest => readNumeral_form hpoint rfl hrest
    have hsecond : Reads (.value (.float (Decimal.toBinary64 false ⟨2, 3⟩).neg))
        ['-', '2', 'e', '3'] :=
      reads_signed true (c := '2') rfl fun _ hrest => readNumeral_form hpower rfl hrest
    have hlist := hfirst.bare.display (d := .list)
      (hsecond.spaced.item .noItems fun d _ => stops_cons (isPunctuation_closer d))
      (fun _ => stops_cons rfl) (by simp)
    exact parse_of_reads hlist.bare
  have hnumerals : floatNumerals "[1.5, -2e3]".toList = [(false, ⟨15, -1⟩), (true, ⟨2, 3⟩)] := by
    have hlast : floatNumerals [']'] = [] := by
      rw [floatNumerals_mark rfl, floatNumerals_nil rfl]
    have hsecond : floatNumerals [',', ' ', '-', '2', 'e', '3', ']'] = [(true, ⟨2, 3⟩)] := by
      rw [floatNumerals_mark rfl, floatNumerals_cons (c := '-') rfl, if_pos (.inr rfl)]
      exact congrArg ((true, ⟨2, 3⟩) :: ·) hlast
    have hfirst : floatNumerals ('[' :: '1' :: ".5, -2e3]".toList) =
        [(false, ⟨15, -1⟩), (true, ⟨2, 3⟩)] := by
      have hdigit : beginsNumeral ('1' :: ".5, -2e3]".toList) = true := rfl
      rw [floatNumerals_mark rfl, floatNumerals_cons (c := '1') rfl, if_neg (by decide),
        if_pos hdigit]
      exact congrArg ((false, ⟨15, -1⟩) :: ·) hsecond
    exact hfirst
  have hrange : InRange "[1.5, -2e3]" := by
    have hbound : (2000 : ℚ) < Decimal.overflow := by
      calc (2000 : ℚ) ≤ 2 ^ (11 : Int) := by norm_num
        _ ≤ 2 ^ (1023 : Int) := two_zpow_le_iff.mpr (by decide)
        _ < Decimal.overflow := Decimal.two_zpow_lt_overflow
    intro n hn
    rw [hnumerals] at hn
    simp only [List.mem_cons, List.not_mem_nil, or_false] at hn
    rcases hn with rfl | rfl
    · refine lt_trans ?_ hbound
      norm_num [Decimal.value]
    · refine lt_of_le_of_lt ?_ hbound
      norm_num [Decimal.value]
  obtain ⟨hfinite, _, hdefault⟩ := finite_iff_inRange hparse
  exact ⟨hparse, hrange, hfinite.mpr hrange, (hdefault _ rfl).mpr hrange⟩

/-- A numeral beyond the range is read as infinity, whose source form is refused and which is
written as null. -/
theorem infinite_of_great_exponent :
    ∃ x, parse "1e999" = .ok (.float x) ∧ x.isFinite = false ∧
      (∀ w, parse (text (.float x)) ≠ .ok w) ∧
      (Default.literal (.float x)).toData.WritesNull := by
  have hread : readAtom ['1', 'e', '9', '9', '9'] =
      .ok (.float (Binary64.ofIndex false (2047 * 0x10000000000000)), []) := rfl
  have hrun : run .expect [] "1e999".toList =
      .ok (.float (Binary64.ofIndex false (2047 * 0x10000000000000)), []) :=
    (run_expect_atom (c := '1') rfl rfl rfl hread).trans run_got_nil
  have hfinite : (Binary64.ofIndex false (2047 * 0x10000000000000)).isFinite = false := rfl
  refine ⟨_, parse_of_run hrun rfl, hfinite, ?_, ?_⟩
  · intro w hw
    have hlegible := exists_parse_text_iff.mp ⟨w, hw⟩
    have htrue := hlegible.2 _ (self_mem_parts _)
    rw [hfinite] at htrue
    cases htrue
  · rw [writesNull_literal, toData, writesNull_tagged, Data.writesNull_float]
    exact hfinite

end Literal

end Scriptorium
