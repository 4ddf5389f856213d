/-
What a literal that the reader accepts is made of.

Its leaves are the values without parts that stand in the source, and no others: displays only
gather them, and no display of a set is left without items (`leaf_mem_parts_of_run`). What holds
of every value without parts therefore holds of every leaf.
-/

import Scriptorium.Proofs.Literal.FloatNumeral
import Scriptorium.Proofs.Literal.SourceForm

namespace Scriptorium.Literal

variable {a u v w : Literal} {vs : List Literal} {ps : List (Literal × Literal)}

/-! ### Leaves -/

/-- A value without parts, or the empty set. -/
def isLeaf : Literal → Bool
  | .set [] => true
  | v => v.isScalar

/-- Some of the literals has the part. -/
def InParts (a : Literal) (vs : List Literal) : Prop :=
  ∃ u ∈ vs, a ∈ u.parts

@[simp] theorem not_inParts_nil : ¬InParts a [] := by
  simp [InParts]

@[simp] theorem inParts_cons : InParts a (v :: vs) ↔ a ∈ v.parts ∨ InParts a vs := by
  simp [InParts]

@[simp] theorem inParts_append {us : List Literal} :
    InParts a (us ++ vs) ↔ InParts a us ∨ InParts a vs := by
  simp [InParts, or_and_right, exists_or]

@[simp] theorem inParts_reverse : InParts a vs.reverse ↔ InParts a vs := by
  simp [InParts]

/-- The keys and values of pairs. -/
def pairItems (ps : List (Literal × Literal)) : List Literal :=
  ps.flatMap fun p => [p.1, p.2]

theorem inParts_pairItems :
    InParts a (pairItems ps) ↔ ∃ p ∈ ps, a ∈ p.1.parts ∨ a ∈ p.2.parts := by
  induction ps with
  | nil => simp [pairItems]
  | cons p ps ih =>
    have hcons : pairItems (p :: ps) = p.1 :: p.2 :: pairItems ps := rfl
    rw [hcons, inParts_cons, inParts_cons, ih]
    simp [or_assoc]

@[simp] theorem inParts_pairItems_reverse :
    InParts a (pairItems ps.reverse) ↔ InParts a (pairItems ps) := by
  simp [inParts_pairItems]

theorem mem_parts_display (ha : a.isLeaf = true) {d : Display} (hset : d = .set → vs ≠ []) :
    a ∈ (d.value vs).parts ↔ InParts a vs := by
  have hne : a ≠ d.value vs := by
    rintro rfl
    cases d with
    | list => cases ha
    | tuple => cases ha
    | set =>
      cases vs with
      | nil => exact hset rfl rfl
      | cons v vs => cases ha
  rw [parts_display, List.mem_cons, mem_partsOfItems]
  exact or_iff_right hne

theorem mem_parts_dict (ha : a.isLeaf = true) :
    a ∈ (dict ps).parts ↔ InParts a (pairItems ps) := by
  have hne : a ≠ .dict ps := by
    rintro rfl
    cases ha
  rw [parts, List.mem_cons, mem_partsOfPairs, inParts_pairItems]
  exact or_iff_right hne

/-! ### Open displays -/

namespace Frame

/-- What has been read of a display. -/
def held : Frame → List Literal
  | .list items | .tuple items | .set items => items
  | .group | .brace => []
  | .dictKey pairs => pairItems pairs
  | .dictValue key pairs => key :: pairItems pairs

/-- There is an item in a display that is known to be a set. -/
def IsFilled (frame : Frame) : Prop :=
  frame ≠ .set []

variable {frame next : Frame} {c : Char}

theorem held_of_opened? (h : Frame.opened? c = some frame) :
    frame.held = [] ∧ frame.IsFilled := by
  unfold Frame.opened? at h
  split at h <;> cases h <;> simp [held, IsFilled]

/-- A value is kept in the display that goes on behind it. -/
theorem inParts_held_of_next (h : frame.after v c = .next next) :
    (InParts a next.held ↔ a ∈ v.parts ∨ InParts a frame.held) ∧ next.IsFilled := by
  cases frame <;> simp only [Frame.after] at h <;> split_ifs at h <;> cases h <;>
    simp [held, IsFilled, pairItems, or_left_comm]

/-- A display that ends behind a value is made of it and of what came before. -/
theorem mem_parts_of_close (ha : a.isLeaf = true) (h : frame.after v c = .close w) :
    a ∈ w.parts ↔ a ∈ v.parts ∨ InParts a frame.held := by
  have hitems (d : Display) (items : List Literal) :
      a ∈ (d.value (v :: items).reverse).parts ↔ a ∈ v.parts ∨ InParts a items := by
    rw [mem_parts_display ha (by simp), inParts_reverse, inParts_cons]
  have hpairs (key : Literal) (ps : List (Literal × Literal)) :
      a ∈ (dict ((key, v) :: ps).reverse).parts ↔
        a ∈ v.parts ∨ InParts a (key :: pairItems ps) := by
    rw [mem_parts_dict ha, inParts_pairItems_reverse, inParts_cons]
    have hcons : pairItems ((key, v) :: ps) = key :: v :: pairItems ps := rfl
    rw [hcons, inParts_cons, inParts_cons, or_left_comm]
  cases frame <;> simp only [Frame.after] at h <;> split_ifs at h <;> cases h
  · exact hitems .list _
  · simp [held]
  · exact hitems .tuple _
  · exact hitems .set []
  · exact hitems .set _
  · exact hpairs _ _

/-- A display that ends where a value could stand is made of what came before. -/
theorem mem_parts_of_closed? (ha : a.isLeaf = true) (hframe : frame.IsFilled)
    (h : frame.closed? c = some w) : a ∈ w.parts ↔ InParts a frame.held := by
  have hitems (d : Display) (items : List Literal) (hset : d = .set → items ≠ []) :
      a ∈ (d.value items.reverse).parts ↔ InParts a items := by
    rw [mem_parts_display ha (by simpa using hset), inParts_reverse]
  cases frame <;> simp only [Frame.closed?, reduceCtorEq] at h <;> split_ifs at h <;> cases h
  · exact hitems .list _ (by simp)
  · exact hitems .tuple [] (by simp)
  · exact hitems .tuple _ (by simp)
  · exact mem_parts_dict ha
  · exact hitems .set _ fun _ hnil => hframe (congrArg _ hnil)
  · rw [mem_parts_dict ha, inParts_pairItems_reverse]
    rfl

end Frame

/-- The value that has just been read. -/
def Stage.held : Stage → List Literal
  | .expect => []
  | .got v => [v]

/-! ### The reader -/

/-- A property of sources says whether the leaf stands in them. -/
structure Finds (a : Literal) (found : List Char → Prop) : Prop where
  nil : ¬found []
  trivia : ∀ s, found (skipTrivia s) ↔ found s
  mark : ∀ c s, isDisplayMark c = true → (found (c :: s) ↔ found s)
  atom : ∀ s v rest, skipTrivia s = s → readAtom s = .ok (v, rest) → Severs rest →
    (found s ↔ a ∈ v.parts ∨ found rest)

/-- The leaves of what is accepted are those that have been read before and those that stand in
what is still to be read. -/
theorem leaf_mem_parts_of_run {stage : Stage} {frames : List Frame} {s rest : List Char}
    {found : List Char → Prop} (ha : a.isLeaf = true) (hfinds : Finds a found)
    (h : run stage frames s = .ok (v, rest)) (hrest : skipTrivia rest = [])
    (hframes : ∀ frame ∈ frames, frame.IsFilled) :
    a ∈ v.parts ↔ InParts a (stage.held ++ frames.flatMap Frame.held) ∨ found s := by
  fun_induction run stage frames s with
  | case1 => cases h
  | case2 s frames c rest hs w outer hclosing ih =>
    obtain ⟨frame, rfl, hclosed⟩ : ∃ frame, frames = frame :: outer ∧ frame.closed? c = some w := by
      cases frames with
      | nil => cases hclosing
      | cons frame frames =>
        obtain ⟨u, hu, heq⟩ := Option.map_eq_some_iff.mp hclosing
        cases heq
        exact ⟨frame, rfl, hu⟩
    rw [List.forall_mem_cons] at hframes
    have hmark := isDisplayMark_of_isPunctuation (isPunctuation_of_closing? hclosing)
    rw [ih h hframes.2, ← hfinds.trivia s, hs, hfinds.mark c _ hmark]
    simp [Stage.held, Frame.mem_parts_of_closed? ha hframes.1 hclosed]
  | case3 s frames c rest hs _ frame hopen ih =>
    obtain ⟨hheld, hfilled⟩ := Frame.held_of_opened? hopen
    rw [ih h (List.forall_mem_cons.mpr ⟨hfilled, hframes⟩), ← hfinds.trivia s, hs,
      hfinds.mark c _ (isDisplayMark_of_opened? hopen)]
    simp [Stage.held, hheld]
  | case4 => cases h
  | case5 s frames c rest hs _ _ w tail hatom ih =>
    have hsevers := (sound_of_run h hrest).2 (by simp)
    have hself : skipTrivia (c :: rest) = c :: rest := by rw [← hs, skipTrivia_skipTrivia]
    rw [ih h hframes, ← hfinds.trivia s, hs, hfinds.atom _ _ _ hself hatom hsevers]
    simp only [Stage.held, List.nil_append, List.cons_append, inParts_cons]
    rw [or_assoc, or_left_comm]
  | case6 s w =>
    cases h
    have hnone : ¬found rest := by
      rw [← hfinds.trivia rest, hrest]
      exact hfinds.nil
    simp [Stage.held, hnone]
  | case7 => cases h
  | case8 s w frame frames c rest hs closed hafter ih =>
    rw [List.forall_mem_cons] at hframes
    have hturn : frame.after w c ≠ .refuse := by simp [hafter]
    have hmark := isDisplayMark_of_isPunctuation (isPunctuation_of_after hturn)
    rw [ih h hframes.2, ← hfinds.trivia s, hs, hfinds.mark c _ hmark]
    simp [Stage.held, Frame.mem_parts_of_close ha hafter, or_assoc]
  | case9 s w frame frames c rest hs next hafter ih =>
    rw [List.forall_mem_cons] at hframes
    have hturn : frame.after w c ≠ .refuse := by simp [hafter]
    have hmark := isDisplayMark_of_isPunctuation (isPunctuation_of_after hturn)
    obtain ⟨hheld, hfilled⟩ := Frame.inParts_held_of_next (a := a) hafter
    rw [ih h (List.forall_mem_cons.mpr ⟨hfilled, hframes.2⟩), ← hfinds.trivia s, hs,
      hfinds.mark c _ hmark]
    simp [Stage.held, hheld, or_assoc]
  | case10 => cases h

/-- The leaves of an accepted literal are those that stand in its source. -/
theorem leaf_mem_parts_of_parse {source : String} {found : List Char → Prop}
    (ha : a.isLeaf = true) (hfinds : Finds a found) (h : parse source = .ok v) :
    a ∈ v.parts ↔ found source.toList := by
  obtain ⟨rest, hrun, hrest⟩ := parse_eq_ok_iff.mp h
  rw [leaf_mem_parts_of_run ha hfinds hrun hrest (by simp)]
  simp [Stage.held]

/-! ### Values without parts -/

theorem parts_of_isScalar (h : v.isScalar = true) : v.parts = [v] := by
  cases v <;> first | rfl | cases h

/-- No numeral is read as the least integer, with a sign or without one. -/
theorem least_ne_of_isNumber {n : Option Decimal} (h : IsNumber n v) (negative : Bool) :
    (if negative then negated v else v).isScalar = true ∧
      (if negative then negated v else v) ≠ .int Int64.minValue := by
  cases h with
  | @int n hn =>
    have hvalue : (if negative then negated (.int (Int64.ofNat n)) else .int (Int64.ofNat n)) =
        .int (Int64.ofInt (signedValue negative n)) := by
      have hsigned := signed_intOf negative (s := []) hn
      rw [intOf, if_pos hn] at hsigned
      exact Except.ok.inj hsigned
    have hbounds : -(intBound : Int) < signedValue negative n ∧
        signedValue negative n < intBound := by
      cases negative <;> simp only [signedValue, if_true, Bool.false_eq_true, if_false] <;> omega
    rw [hvalue]
    refine ⟨rfl, fun heq => ?_⟩
    have hmin := congrArg Int64.toInt (Literal.int.inj heq)
    rw [Int64.toInt_ofInt_of_le hbounds.1.le hbounds.2] at hmin
    exact absurd hmin hbounds.1.ne'
  | float d => cases negative <;> exact ⟨rfl, by simp [negated]⟩

/-- A value without parts that is read is no display and not the least integer. -/
theorem isScalar_of_readAtom {s rest : List Char} (h : readAtom s = .ok (v, rest))
    (hrest : Severs rest) : v.isScalar = true ∧ v ≠ .int Int64.minValue := by
  cases atomForm_of_readAtom h with
  | signed hsign hsigned =>
    obtain ⟨w, hread, rfl⟩ := exists_of_readSigned hsigned
    exact least_ne_of_isNumber (isNumber_of_readNumeral hread hrest).2 _
  | numeral hsign hnumber hread =>
    exact least_ne_of_isNumber (isNumber_of_readNumeral hread hrest).2 false
  | pieces => exact ⟨rfl, by simp⟩
  | word hsign hnumber hpiece hletter hread =>
    obtain ⟨hconstant, _⟩ := constant?_of_readWord hread
    rcases null_or_bool_of_constant? hconstant with rfl | ⟨b, rfl⟩
    · exact ⟨rfl, by simp⟩
    · exact ⟨rfl, by simp⟩

/-! ### Floating-point numbers -/

/-- The floating-point numbers of an accepted literal are those next to the floating-point
numerals of its source. -/
theorem float_mem_parts_iff {source : String} (h : parse source = .ok v) (x : Binary64) :
    .float x ∈ v.parts ↔
      ∃ n ∈ floatNumerals source.toList, n.2.toBinary64 n.1 = x := by
  have hfinds : Finds (.float x) fun s => ∃ n ∈ floatNumerals s, n.2.toBinary64 n.1 = x := by
    constructor
    · simp [floatNumerals_nil skipTrivia_nil]
    · intro s
      rw [floatNumerals_skipTrivia]
    · intro c s hc
      rw [floatNumerals_mark hc]
    · intro s v rest hs hatom hrest
      rw [floatNumerals_readAtom hs hatom hrest,
        parts_of_isScalar (isScalar_of_readAtom hatom hrest).1, List.mem_singleton, eq_comm]
  exact leaf_mem_parts_of_parse rfl hfinds h

/-! ### What is accepted can be written -/

/-- There is no empty set and no least integer in an accepted literal. -/
theorem writable_of_parse {source : String} (h : parse source = .ok v) : Writable v := by
  have hnone {a : Literal} (ha : a.isLeaf = true)
      (hatom : ∀ s v rest, readAtom s = .ok (v, rest) → Severs rest → a ≠ v) : a ∉ v.parts := by
    have hfinds : Finds a fun _ => False := by
      constructor
      · simp
      · simp
      · simp
      · intro s v rest _ hread hrest
        rw [parts_of_isScalar (isScalar_of_readAtom hread hrest).1, List.mem_singleton]
        simp [hatom s v rest hread hrest]
    rw [leaf_mem_parts_of_parse ha hfinds h]
    simp
  constructor
  · refine hnone rfl fun s v rest hread hrest => ?_
    rintro rfl
    cases (isScalar_of_readAtom hread hrest).1
  · refine hnone rfl fun s v rest hread hrest => ?_
    exact (isScalar_of_readAtom hread hrest).2.symm

end Scriptorium.Literal
