/-
The grammar of literals, and its completeness: every text that spells a literal is read as that
literal.

`Spells` relates stretches of source to what they stand for, one rule for each form. A display
is its first item followed by a tail, in which every further item stands behind a comma; the tail
also says whether there is a comma behind the last item. What the reader does with a spelling, for
all displays that are open around it and all text behind it, is `Reads`; it is proved by induction
on the derivation.
-/

import Scriptorium.Proofs.Literal.Numeral
import Scriptorium.Proofs.Literal.Quoted
import Scriptorium.Proofs.Literal.Step

namespace Scriptorium.Literal

open Text (isBlank isWordChar)

/-! ### Displays of items -/

/-- The displays of items. -/
inductive Display where
  | list
  | tuple
  | set

namespace Display

/-- The value of a display. -/
def value : Display → List Literal → Literal
  | .list => .list
  | .tuple => .tuple
  | .set => .set

/-- The character that opens a display. -/
def opener : Display → Char
  | .list => '['
  | .tuple => '('
  | .set => '\x7b'

/-- The character that closes a display. -/
def closer : Display → Char
  | .list => ']'
  | .tuple => ')'
  | .set => '\x7d'

end Display

/-! ### The grammar -/

/-- What a stretch of source stands for. -/
inductive Meaning where
  | value (v : Literal)
  /-- A value with trivia around it. -/
  | padded (v : Literal)
  /-- The items behind the first one of a display. -/
  | items (vs : List Literal)
  /-- The pairs behind the first one of a dictionary. -/
  | pairs (ps : List (Literal × Literal))

/-- The texts that spell a meaning. There is no rule for floating-point numbers. -/
inductive Spells : Meaning → List Char → Prop where
  | null : Spells (.value .null) "None".toList
  | true : Spells (.value (.bool true)) "True".toList
  | false : Spells (.value (.bool false)) "False".toList
  | int {n : Int64} {s : List Char} : Integer s n.toInt → Spells (.value (.int n)) s
  | str {text s : List Char} : Pieces s text → Spells (.value (.str (String.ofList text))) s
  /-- Redundant parentheses. -/
  | group {v : Literal} {s : List Char} :
      Spells (.padded v) s → Spells (.value v) ('(' :: (s ++ [')']))
  /-- Braces without items are no set. -/
  | empty {d : Display} {t : List Char} :
      d ≠ .set → Trivia t → Spells (.value (d.value [])) (d.opener :: (t ++ [d.closer]))
  /-- There is at least one comma in a tuple, also behind a single item. -/
  | display {d : Display} {v : Literal} {vs : List Literal} {s tail : List Char} :
      Spells (.padded v) s → Spells (.items vs) tail → (d = .tuple → tail ≠ []) →
      Spells (.value (d.value (v :: vs))) (d.opener :: (s ++ (tail ++ [d.closer])))
  | emptyDict {t : List Char} :
      Trivia t → Spells (.value (.dict [])) ('\x7b' :: (t ++ ['\x7d']))
  | dict {key v : Literal} {ps : List (Literal × Literal)} {s u tail : List Char} :
      Spells (.padded key) s → Spells (.padded v) u → Spells (.pairs ps) tail →
      Spells (.value (.dict ((key, v) :: ps))) ('\x7b' :: (s ++ ':' :: (u ++ (tail ++ ['\x7d']))))
  | padded {v : Literal} {t s u : List Char} :
      Trivia t → Spells (.value v) s → Trivia u → Spells (.padded v) (t ++ (s ++ u))
  | noItems : Spells (.items []) []
  | commaBehindItems {t : List Char} : Trivia t → Spells (.items []) (',' :: t)
  | item {v : Literal} {vs : List Literal} {s tail : List Char} :
      Spells (.padded v) s → Spells (.items vs) tail →
      Spells (.items (v :: vs)) (',' :: (s ++ tail))
  | noPairs : Spells (.pairs []) []
  | commaBehindPairs {t : List Char} : Trivia t → Spells (.pairs []) (',' :: t)
  | pair {key v : Literal} {ps : List (Literal × Literal)} {s u tail : List Char} :
      Spells (.padded key) s → Spells (.padded v) u → Spells (.pairs ps) tail →
      Spells (.pairs ((key, v) :: ps)) (',' :: (s ++ ':' :: (u ++ tail)))

theorem Spells.bare {v : Literal} {s : List Char} (h : Spells (.value v) s) :
    Spells (.padded v) s := by
  have := Spells.padded .nil h .nil
  simpa using this

theorem Spells.spaced {v : Literal} {s : List Char} (h : Spells (.value v) s) :
    Spells (.padded v) (' ' :: s) := by
  have := Spells.padded Trivia.space h .nil
  simpa using this

/-! ### Frames of displays -/

namespace Display

/-- The frame of a display with the items read so far, the last one first. -/
def frame : Display → List Literal → Frame
  | .list => .list
  | .tuple => .tuple
  | .set => .set

/-- The frame of a display that has just been opened. -/
def first : Display → Frame
  | .list => .list []
  | .tuple => .group
  | .set => .brace

theorem opened?_opener (d : Display) : Frame.opened? d.opener = some d.first := by
  cases d <;> rfl

theorem closed?_first {d : Display} (h : d ≠ .set) :
    d.first.closed? d.closer = some (d.value []) := by
  cases d with
  | list => rfl
  | tuple => rfl
  | set => exact absurd rfl h

theorem closed?_frame (d : Display) (items : List Literal) :
    (d.frame items).closed? d.closer = some (d.value items.reverse) := by
  cases d <;> rfl

theorem first_after_comma (d : Display) (v : Literal) :
    d.first.after v ',' = .next (d.frame [v]) := by
  cases d <;> rfl

theorem first_after_closer {d : Display} (h : d ≠ .tuple) (v : Literal) :
    d.first.after v d.closer = .close (d.value [v]) := by
  cases d with
  | list => rfl
  | tuple => exact absurd rfl h
  | set => rfl

theorem frame_after_comma (d : Display) (v : Literal) (items : List Literal) :
    (d.frame items).after v ',' = .next (d.frame (v :: items)) := by
  cases d <;> rfl

theorem frame_after_closer (d : Display) (v : Literal) (items : List Literal) :
    (d.frame items).after v d.closer = .close (d.value (v :: items).reverse) := by
  cases d <;> rfl

end Display

/-! ### Marks of displays -/

/-- A character that a value or a tail may be followed by inside a display. -/
def isPunctuation (c : Char) : Bool :=
  [',', ':', ']', ')', '\x7d'].contains c

theorem isPunctuation_iff {c : Char} :
    isPunctuation c = true ↔ c = ',' ∨ c = ':' ∨ c = ']' ∨ c = ')' ∨ c = '\x7d' := by
  simp [isPunctuation]

theorem isPunctuation_closer (d : Display) : isPunctuation d.closer = true := by
  cases d <;> rfl

theorem isSolid_of_isPunctuation {c : Char} (h : isPunctuation c = true) : isSolid c = true := by
  rcases isPunctuation_iff.mp h with rfl | rfl | rfl | rfl | rfl <;> decide

/-- What may follow a value: nothing, or a mark of the display around it. -/
def Stops (s : List Char) : Prop :=
  ∀ c ∈ s.head?, isPunctuation c = true

/-- Behind trivia and the end of a value, no token goes on and no piece of a string begins. -/
theorem Stops.severs {t s : List Char} (h : Stops s) (ht : Trivia t) :
    Severs (t ++ s) ∧ atPiece (skipTrivia (t ++ s)) = false := by
  rw [skipTrivia_append ht]
  cases s with
  | nil => exact ⟨ht.severs_append fun _ => severs_nil, rfl⟩
  | cons c s =>
    have hc := h c rfl
    rw [skipTrivia_of_solid (isSolid_of_isPunctuation hc)]
    refine ⟨ht.severs_append fun _ => severs_cons.mpr ?_, ?_⟩
    · rcases isPunctuation_iff.mp hc with rfl | rfl | rfl | rfl | rfl <;> decide
    · rcases isPunctuation_iff.mp hc with rfl | rfl | rfl | rfl | rfl <;> rfl

/-! ### Values without parts -/

/-- A character that begins a value without parts. -/
def beginsAtom (c : Char) : Bool :=
  isSolid c && !(['[', ']', '(', ')', '\x7b', '\x7d'].contains c)

theorem beginsAtom_iff {c : Char} : beginsAtom c = true ↔
    isSolid c = true ∧ c ≠ '[' ∧ c ≠ ']' ∧ c ≠ '(' ∧ c ≠ ')' ∧ c ≠ '\x7b' ∧ c ≠ '\x7d' := by
  simp [beginsAtom]

theorem beginsAtom_of_isDigit {c : Char} (h : c.isDigit = true) : beginsAtom c = true := by
  have hsolid := isSolid_of_isWordChar (Text.isWordChar_of_isDigit h)
  refine beginsAtom_iff.mpr ⟨hsolid, ?_, ?_, ?_, ?_, ?_, ?_⟩
  all_goals
    rintro rfl
    exact absurd h (by decide)

/-- No display ends where a value without parts begins. -/
theorem closing?_of_beginsAtom {c : Char} (h : beginsAtom c = true) (frames : List Frame) :
    closing? c frames = none := by
  rw [beginsAtom_iff] at h
  cases frames with
  | nil => rfl
  | cons frame frames => cases frame <;> simp [closing?, Frame.closed?, h]

theorem opened?_of_beginsAtom {c : Char} (h : beginsAtom c = true) : Frame.opened? c = none := by
  rw [beginsAtom_iff] at h
  unfold Frame.opened?
  split <;> simp_all

theorem run_atom {c : Char} {s rest : List Char} {v : Literal} (hc : beginsAtom c = true)
    (hatom : readAtom (c :: s ++ rest) = .ok (v, rest)) (frames : List Frame) :
    run .expect frames (c :: s ++ rest) = run (.got v) frames rest := by
  have hsolid := (beginsAtom_iff.mp hc).1
  exact run_expect_atom (skipTrivia_of_solid hsolid _) (closing?_of_beginsAtom hc frames)
    (opened?_of_beginsAtom hc) hatom

/-- A word that names a constant is read as it. -/
theorem readAtom_constant {w rest : List Char} {v : Literal} (h : constant? w = some v)
    (hrest : Severs rest) : readAtom (w ++ rest) = .ok (v, rest) := by
  have hall : w.all Char.isAlpha = true := by
    rcases constant?_eq_some h with rfl | rfl | rfl <;> rfl
  have hword := List.all_eq_true.mp hall
  have hstop : ∀ c ∈ rest.head?, isWordChar c = false := fun c hc => (hrest c hc).1
  have hnoAlpha : ∀ c ∈ rest.head?, c.isAlpha = false := by
    intro c hc
    rw [Bool.eq_false_iff]
    intro halpha
    have := hstop c hc
    rw [Text.isWordChar_of_isAlpha halpha] at this
    cases this
  have hpiece : atPiece (w ++ rest) = false := by
    simp only [atPiece, Text.takeWhile_append hword hnoAlpha]
    rcases constant?_eq_some h with rfl | rfl | rfl <;> rfl
  have hread : readWord (w ++ rest) = .ok (v, rest) := by
    have hall : ∀ c ∈ w, isWordChar c = true := fun c hc => Text.isWordChar_of_isAlpha (hword c hc)
    simp only [readWord, Text.takeWhile_append hall hstop, Text.dropWhile_append hall hstop, h]
  obtain ⟨c, u, rfl, hc⟩ : ∃ c u, w = c :: u ∧ c ∈ ['N', 'T', 'F'] := by
    rcases constant?_eq_some h with rfl | rfl | rfl <;> exact ⟨_, _, rfl, by decide⟩
  simp only [List.mem_cons, List.not_mem_nil, or_false] at hc
  have hsign : ¬(c = '+' ∨ c = '-') := by
    rcases hc with rfl | rfl | rfl <;> decide
  have hnumber : (c.isDigit || (c == '.' && (u ++ rest).head?.any Char.isDigit)) = false := by
    rcases hc with rfl | rfl | rfl <;> rfl
  have hletter : (Text.isLetter c || c == '_') = true := by
    rcases hc with rfl | rfl | rfl <;> decide
  rw [List.cons_append] at hpiece hread ⊢
  rw [readAtom_word hsign hnumber hpiece hletter, hread]

/-- The sign of a numeral is applied to the number that was read without it. -/
theorem readAtom_numeral {sign s rest : List Char} {negative : Bool} {n : Nat}
    (hsign : Sign sign negative) (hs : Numeral s n) (hrest : Severs rest) :
    readAtom (sign ++ s ++ rest) =
      ((intOf s n).map fun v => if negative then negated v else v).map (·, rest) := by
  have hread := readNumeral_append hs hrest
  have hskip := skipTrivia_numeral hs rest
  rw [List.append_assoc]
  cases hsign with
  | none =>
    obtain ⟨c, u, rfl, hc⟩ := hs.head
    rw [List.nil_append, List.cons_append, readAtom_digit hc, ← List.cons_append, hread]
    cases intOf (c :: u) n <;> rfl
  | plus ht =>
    rw [List.cons_append, readAtom_sign (.inl rfl), readSigned, skipTrivia_append ht, hskip, hread]
    cases intOf s n <;> rfl
  | minus ht =>
    rw [List.cons_append, readAtom_sign (.inr rfl), readSigned, skipTrivia_append ht, hskip, hread]
    cases intOf s n <;> rfl

/-- A numeral with a sign begins like a value without parts. -/
theorem Sign.head_numeral {sign s : List Char} {negative : Bool} {n : Nat}
    (hsign : Sign sign negative) (hs : Numeral s n) :
    ∃ c u, sign ++ s = c :: u ∧ beginsAtom c = true := by
  cases hsign with
  | none =>
    obtain ⟨c, u, rfl, hc⟩ := hs.head
    exact ⟨c, u, rfl, beginsAtom_of_isDigit hc⟩
  | plus _ => exact ⟨_, _, rfl, by decide⟩
  | minus _ => exact ⟨_, _, rfl, by decide⟩

/-- An integer is read with its sign. -/
theorem readAtom_integer {s rest : List Char} {n : Int64} (h : Integer s n.toInt)
    (hrest : Severs rest) : readAtom (s ++ rest) = .ok (.int n, rest) := by
  obtain ⟨sign, negative, digits, m, hsign, hdigits, hbound, rfl, hvalue⟩ := h.exists_sign
  rw [readAtom_numeral hsign hdigits hrest, signed_intOf negative hbound, ← hvalue,
    Int64.ofInt_toInt]
  rfl

theorem Integer.head {s : List Char} {z : Int} (h : Integer s z) :
    ∃ c u, s = c :: u ∧ beginsAtom c = true := by
  obtain ⟨sign, negative, digits, m, hsign, hdigits, _, rfl, _⟩ := h.exists_sign
  exact hsign.head_numeral hdigits

theorem readAtom_string {s text rest : List Char} (h : Pieces s text) (hrest : Severs rest)
    (hnext : atPiece (skipTrivia rest) = false) :
    readAtom (s ++ rest) = .ok (.str (String.ofList text), rest) := by
  have hpiece := atPiece_append_pieces h rest
  have hread := readPieces_append h hrest hnext []
  obtain ⟨c, u, rfl, hc⟩ := h.head
  simp only [List.mem_cons, List.not_mem_nil, or_false] at hc
  have hsign : ¬(c = '+' ∨ c = '-') := by
    rcases hc with rfl | rfl | rfl | rfl | rfl | rfl <;> decide
  have hnumber : (c.isDigit || (c == '.' && (u ++ rest).head?.any Char.isDigit)) = false := by
    rcases hc with rfl | rfl | rfl | rfl | rfl | rfl <;> rfl
  rw [List.cons_append] at hpiece hread ⊢
  rw [readAtom_pieces hsign hnumber hpiece, hread]
  rfl

/-! ### Completeness -/

/-- What the reader does with a spelling, whatever displays are open around it and whatever follows.
A tail is met behind a value `w`, in a frame that takes the value as the display's next item; its
claim covers the end of the display. -/
def Reads : Meaning → List Char → Prop
  | .value v, s =>
    ∀ frames rest, Severs rest → atPiece (skipTrivia rest) = false →
      run .expect frames (s ++ rest) = run (.got v) frames rest
  | .padded v, s =>
    ∀ frames rest, Stops rest →
      ∃ u, Trivia u ∧ run .expect frames (s ++ rest) = run (.got v) frames (u ++ rest)
  | .items vs, tail =>
    ∀ (d : Display) (w : Literal) (done : List Literal) (frame : Frame) (frames : List Frame)
      (rest : List Char),
      frame.after w ',' = .next (d.frame (w :: done)) →
      (tail = [] → frame.after w d.closer = .close (d.value (w :: done).reverse)) →
      run (.got w) (frame :: frames) (tail ++ d.closer :: rest) =
        run (.got (d.value (done.reverse ++ w :: vs))) frames rest
  | .pairs ps, tail =>
    ∀ (key w : Literal) (done : List (Literal × Literal)) (frames : List Frame)
      (rest : List Char),
      run (.got w) (.dictValue key done :: frames) (tail ++ '\x7d' :: rest) =
        run (.got (.dict (done.reverse ++ (key, w) :: ps))) frames rest

/-- Inside a display the trivia behind a value is of no account. -/
theorem Reads.padded_inside {v : Literal} {s : List Char} (h : Reads (.padded v) s)
    (frame : Frame) (frames : List Frame) {rest : List Char} (hrest : Stops rest) :
    run .expect (frame :: frames) (s ++ rest) = run (.got v) (frame :: frames) rest := by
  obtain ⟨u, hu, hrun⟩ := h (frame :: frames) rest hrest
  rw [hrun]
  exact run_got_congr (skipTrivia_append hu rest)

theorem stops_cons {c : Char} {s : List Char} (h : isPunctuation c = true) : Stops (c :: s) := by
  rintro a ⟨⟩
  exact h

theorem Spells.stops_tail {vs : List Literal} {tail s : List Char} (h : Spells (.items vs) tail)
    {d : Display} : Stops (tail ++ d.closer :: s) := by
  cases h with
  | noItems => exact stops_cons (isPunctuation_closer d)
  | commaBehindItems _ => exact stops_cons rfl
  | item _ _ => exact stops_cons rfl

theorem Spells.stops_pairs {ps : List (Literal × Literal)} {tail s : List Char}
    (h : Spells (.pairs ps) tail) : Stops (tail ++ '\x7d' :: s) := by
  cases h with
  | noPairs => exact stops_cons rfl
  | commaBehindPairs _ => exact stops_cons rfl
  | pair _ _ _ => exact stops_cons rfl

theorem skipTrivia_punctuation {c : Char} (hc : isPunctuation c = true) (s : List Char) :
    skipTrivia (c :: s) = c :: s :=
  skipTrivia_of_solid (isSolid_of_isPunctuation hc) s

/-- An opening bracket opens its display in any place where a value may stand. -/
theorem run_open {c : Char} {frame : Frame} (h : Frame.opened? c = some frame)
    (frames : List Frame) (s : List Char) :
    run .expect frames (c :: s) = run .expect (frame :: frames) s := by
  have hc : c = '[' ∨ c = '(' ∨ c = '\x7b' := by
    unfold Frame.opened? at h
    split at h <;> simp_all
  refine run_expect_open (skipTrivia_of_solid ?_ s) ?_ h
  · rcases hc with rfl | rfl | rfl <;> decide
  · cases frames with
    | nil => rfl
    | cons frame frames =>
      rcases hc with rfl | rfl | rfl <;> cases frame <;> simp [closing?, Frame.closed?]

/-- A display without items is closed behind its trivia. -/
theorem run_empty {t : List Char} {c : Char} {frame : Frame} {v : Literal} (ht : Trivia t)
    (hc : isPunctuation c = true) (h : frame.closed? c = some v) (frames : List Frame)
    (s : List Char) : run .expect (frame :: frames) (t ++ c :: s) = run (.got v) frames s := by
  rw [run_expect_congr (skipTrivia_append ht _)]
  refine run_expect_close (skipTrivia_punctuation hc s) ?_
  simp [closing?, h]

namespace Reads

variable {key v : Literal} {vs : List Literal} {ps : List (Literal × Literal)}
  {d : Display} {s t u tail : List Char}

theorem atom {c : Char} (hc : beginsAtom c = true)
    (h : ∀ rest, Severs rest → atPiece (skipTrivia rest) = false →
      readAtom (c :: s ++ rest) = .ok (v, rest)) : Reads (.value v) (c :: s) := by
  intro frames rest hrest hnext
  exact run_atom hc (h rest hrest hnext) frames

theorem constant {c : Char} (hc : beginsAtom c = true) (h : constant? (c :: s) = some v) :
    Reads (.value v) (c :: s) :=
  atom hc fun _ hrest _ => readAtom_constant h hrest

theorem int {n : Int64} (h : Integer s n.toInt) : Reads (.value (.int n)) s := by
  obtain ⟨c, u, rfl, hc⟩ := h.head
  exact atom hc fun _ hrest _ => readAtom_integer h hrest

theorem str {text : List Char} (h : Pieces s text) :
    Reads (.value (.str (String.ofList text))) s := by
  obtain ⟨c, u, rfl, hc⟩ := h.head
  refine atom ?_ fun _ hrest hnext => readAtom_string h hrest hnext
  simp only [List.mem_cons, List.not_mem_nil, or_false] at hc
  rcases hc with rfl | rfl | rfl | rfl | rfl | rfl <;> decide

theorem group (h : Reads (.padded v) s) : Reads (.value v) ('(' :: (s ++ [')'])) := by
  intro frames rest _ _
  simp only [List.cons_append, List.append_assoc, List.nil_append]
  rw [run_open rfl, h.padded_inside _ _ (stops_cons rfl)]
  exact run_got_close (skipTrivia_punctuation rfl rest) rfl

theorem empty (hset : d ≠ .set) (ht : Trivia t) :
    Reads (.value (d.value [])) (d.opener :: (t ++ [d.closer])) := by
  intro frames rest _ _
  simp only [List.cons_append, List.append_assoc, List.nil_append]
  rw [run_open d.opened?_opener]
  exact run_empty ht (isPunctuation_closer d) (d.closed?_first hset) frames rest

theorem display (h : Reads (.padded v) s) (htail : Reads (.items vs) tail)
    (hstops : ∀ rest, Stops (tail ++ d.closer :: rest)) (hcomma : d = .tuple → tail ≠ []) :
    Reads (.value (d.value (v :: vs))) (d.opener :: (s ++ (tail ++ [d.closer]))) := by
  intro frames rest _ _
  simp only [List.cons_append, List.append_assoc, List.nil_append]
  rw [run_open d.opened?_opener, h.padded_inside _ _ (hstops rest)]
  refine htail d v [] d.first frames rest (d.first_after_comma v) fun hnil => ?_
  exact d.first_after_closer (fun htuple => hcomma htuple hnil) v

theorem emptyDict (ht : Trivia t) : Reads (.value (.dict [])) ('\x7b' :: (t ++ ['\x7d'])) := by
  intro frames rest _ _
  simp only [List.cons_append, List.append_assoc, List.nil_append]
  rw [run_open rfl]
  exact run_empty ht rfl rfl frames rest

theorem dict (hkey : Reads (.padded key) s) (hvalue : Reads (.padded v) u)
    (htail : Reads (.pairs ps) tail) (hstops : ∀ rest, Stops (tail ++ '\x7d' :: rest)) :
    Reads (.value (.dict ((key, v) :: ps)))
      ('\x7b' :: (s ++ ':' :: (u ++ (tail ++ ['\x7d'])))) := by
  intro frames rest _ _
  simp only [List.cons_append, List.append_assoc, List.nil_append]
  rw [run_open rfl, hkey.padded_inside _ _ (stops_cons rfl),
    run_got_next (skipTrivia_punctuation rfl _) rfl,
    hvalue.padded_inside _ _ (hstops rest)]
  exact htail _ _ [] frames rest

theorem padded (ht : Trivia t) (h : Reads (.value v) s) (hu : Trivia u) :
    Reads (.padded v) (t ++ (s ++ u)) := by
  intro frames rest hrest
  obtain ⟨hsevers, hnext⟩ := hrest.severs hu
  refine ⟨_, hu, ?_⟩
  rw [List.append_assoc, List.append_assoc, run_expect_congr (skipTrivia_append ht _)]
  exact h frames _ hsevers hnext

theorem bare (h : Reads (.value v) s) : Reads (.padded v) s := by
  simpa using padded .nil h .nil

theorem spaced (h : Reads (.value v) s) : Reads (.padded v) (' ' :: s) := by
  simpa using padded Trivia.space h .nil

theorem noItems : Reads (.items []) [] := by
  intro d w done frame frames rest _ hclose
  have hskip := skipTrivia_punctuation (isPunctuation_closer d) rest
  rw [List.nil_append, run_got_close hskip (hclose rfl)]
  simp

theorem commaBehindItems (ht : Trivia t) : Reads (.items []) (',' :: t) := by
  intro d w done frame frames rest hcomma _
  rw [List.cons_append, run_got_next (skipTrivia_punctuation rfl _) hcomma,
    run_empty ht (isPunctuation_closer d) (d.closed?_frame _)]
  simp

theorem item (h : Reads (.padded v) s) (htail : Reads (.items vs) tail)
    (hstops : ∀ (d : Display) (rest : List Char), Stops (tail ++ d.closer :: rest)) :
    Reads (.items (v :: vs)) (',' :: (s ++ tail)) := by
  intro d w done frame frames rest hcomma _
  rw [List.cons_append, List.append_assoc,
    run_got_next (skipTrivia_punctuation rfl _) hcomma,
    h.padded_inside _ _ (hstops d rest),
    htail d _ (w :: done) _ frames rest (d.frame_after_comma _ _)
      fun _ => d.frame_after_closer _ _]
  simp

theorem noPairs : Reads (.pairs []) [] := by
  intro key w done frames rest
  rw [List.nil_append, run_got_close (skipTrivia_punctuation rfl rest) rfl]
  simp

theorem commaBehindPairs (ht : Trivia t) : Reads (.pairs []) (',' :: t) := by
  intro key w done frames rest
  rw [List.cons_append, run_got_next (skipTrivia_punctuation rfl _) rfl,
    run_empty ht rfl rfl]
  simp

theorem pair (hkey : Reads (.padded key) s) (hvalue : Reads (.padded v) u)
    (htail : Reads (.pairs ps) tail) (hstops : ∀ rest, Stops (tail ++ '\x7d' :: rest)) :
    Reads (.pairs ((key, v) :: ps)) (',' :: (s ++ ':' :: (u ++ tail))) := by
  intro key w done frames rest
  simp only [List.cons_append, List.append_assoc]
  rw [run_got_next (skipTrivia_punctuation rfl _) rfl,
    hkey.padded_inside _ _ (stops_cons rfl),
    run_got_next (skipTrivia_punctuation rfl _) rfl,
    hvalue.padded_inside _ _ (hstops rest), htail]
  simp

end Reads

/-- What spells a meaning is read as it. -/
theorem reads_of_spells {meaning : Meaning} {s : List Char} (h : Spells meaning s) :
    Reads meaning s := by
  induction h with
  | null => exact .constant (by decide) rfl
  | true => exact .constant (by decide) rfl
  | false => exact .constant (by decide) rfl
  | int h => exact .int h
  | str h => exact .str h
  | group _ ih => exact ih.group
  | empty hset ht => exact .empty hset ht
  | display _ htail hcomma ihs ihtail =>
    exact ihs.display ihtail (fun _ => htail.stops_tail) hcomma
  | emptyDict ht => exact .emptyDict ht
  | dict _ _ htail ihs ihu ihtail => exact ihs.dict ihu ihtail fun _ => htail.stops_pairs
  | padded ht _ hu ih => exact ih.padded ht hu
  | noItems => exact .noItems
  | commaBehindItems ht => exact .commaBehindItems ht
  | item _ htail ihs ihtail => exact ihs.item ihtail fun _ _ => htail.stops_tail
  | noPairs => exact .noPairs
  | commaBehindPairs ht => exact .commaBehindPairs ht
  | pair _ _ htail ihs ihu ihtail => exact ihs.pair ihu ihtail fun _ => htail.stops_pairs

/-- A source is read as a literal if the reader ends with it before trivia, and only then. -/
theorem parse_eq_ok_iff {v : Literal} {source : String} : parse source = .ok v ↔
    ∃ rest, run .expect [] source.toList = .ok (v, rest) ∧ skipTrivia rest = [] := by
  constructor
  · intro h
    simp only [parse] at h
    split at h
    · cases h
    split at h
    · cases h
      exact ⟨_, ‹_›, ‹_›⟩
    · cases h
  · rintro ⟨rest, hrun, hrest⟩
    simp only [parse, hrun, hrest]

theorem parse_of_run {v : Literal} {source : String} {rest : List Char}
    (h : run .expect [] source.toList = .ok (v, rest)) (hrest : skipTrivia rest = []) :
    parse source = .ok v :=
  parse_eq_ok_iff.mpr ⟨rest, h, hrest⟩

theorem parse_of_reads {v : Literal} {source : String} (h : Reads (.padded v) source.toList) :
    parse source = .ok v := by
  obtain ⟨u, hu, hrun⟩ := h [] [] (by simp [Stops])
  rw [List.append_nil, List.append_nil, run_got_nil] at hrun
  exact parse_of_run hrun (skipTrivia_eq_nil hu)

/-- **Completeness of the reader.** Every text that spells a literal, with trivia around it, is
read as that literal. -/
theorem parse_of_spells {v : Literal} {source : String}
    (h : Spells (.padded v) source.toList) : parse source = .ok v := by
  exact parse_of_reads (reads_of_spells h)

theorem parse_of_spells_nested :
    Spells (.padded (.tuple [.list [.int (-31), .str "ab"]]))
        "(\n[-0x1_F, 'a' r\"b\",],)".toList ∧
      parse "(\n[-0x1_F, 'a' r\"b\",],)" = .ok (.tuple [.list [.int (-31), .str "ab"]]) := by
  have hdigits : Digits 16 ['1', '_', 'F'] 31 :=
    .next (k := 1) (.digit (c := '1') (d := 1) (by decide) (by decide))
      (c := 'F') (d := 15) (by decide) (by decide)
  have hint : Spells (.value (.int (-31))) ['-', '0', 'x', '1', '_', 'F'] :=
    .int (.minus .nil (.based (k := 0) (by decide) hdigits) (by decide))
  have hpieces : Pieces ['\'', 'a', '\'', ' ', 'r', '"', 'b', '"'] ['a', 'b'] := by
    have ha : Piece ['\'', 'a', '\''] ['a'] :=
      @Piece.mk [] ['a'] ['a'] ⟨false, '\'', false⟩ (by decide) rfl
        (.plain (by decide) (by decide) (by simp) .nil)
    have hb : Piece ['r', '"', 'b', '"'] ['b'] :=
      @Piece.mk ['r'] ['b'] ['b'] ⟨true, '"', false⟩ (by decide) rfl
        (.plain (by decide) (by decide) (by simp) .nil)
    exact .more ha .space (by simp) (.last hb)
  have hstr : Spells (.padded (.str "ab")) [' ', '\'', 'a', '\'', ' ', 'r', '"', 'b', '"'] :=
    .padded .space (.str hpieces) .nil
  have hlist : Spells (.value (.list [.int (-31), .str "ab"]))
      "[-0x1_F, 'a' r\"b\",]".toList :=
    .display (d := .list) hint.bare (.item hstr (.commaBehindItems .nil)) (by simp)
  have hsource : Spells (.value (.tuple [.list [.int (-31), .str "ab"]]))
      "(\n[-0x1_F, 'a' r\"b\",],)".toList :=
    .display (d := .tuple) (.padded (.blank (c := '\n') (by decide) .nil) hlist .nil)
      (.commaBehindItems .nil) (by simp)
  exact ⟨hsource.bare, parse_of_spells hsource.bare⟩

end Scriptorium.Literal
