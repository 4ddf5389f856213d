/-
What ends a string.

The levels that are open in a string still take characters of their own, and no turn looks further
ahead than they do. So the characters up to the end of a string settle where it ends
(`scan_string`), whatever stands behind it, unless that makes two marks into three.
-/

import Scriptorium.Proofs.Script.Munch

namespace Scriptorium.Script

variable {c : Char} {s t : List Char}

/-! ### Characters to come -/

/-- The number of characters that a level takes at least. -/
def Level.weight : Level → Nat
  | .text q => if q.triple then 3 else 1
  | .hole _ _ => 1
  | .layout => 1

/-- The number of characters that open levels take at least. -/
def weight : List Level → Nat
  | [] => 0
  | level :: outer => level.weight + weight outer

theorem Level.weight_pos (level : Level) : 0 < level.weight := by
  cases level with
  | text q => rw [weight]; split <;> omega
  | hole | layout => exact Nat.one_pos

/-- Whether two texts agree on their first `n` characters, and have them. -/
structure Agree (n : Nat) (s t : List Char) : Prop where
  le_length : n ≤ s.length
  take_eq : t.take n = s.take n

namespace Agree

variable {n m : Nat}

theorem append (p s t : List Char) : Agree p.length (p ++ s) (p ++ t) where
  le_length := by simp
  take_eq := by rw [List.take_left, List.take_left]

theorem mono (h : Agree n s t) (hle : m ≤ n) : Agree m s t where
  le_length := hle.trans h.le_length
  take_eq := by
    have := congrArg (List.take m) h.take_eq
    rwa [List.take_take, List.take_take, Nat.min_eq_left hle] at this

theorem drop (h : Agree (n + m) s t) : Agree m (s.drop n) (t.drop n) where
  le_length := by
    have := h.le_length
    rw [List.length_drop]
    omega
  take_eq := by
    have := congrArg (List.drop n) h.take_eq
    rwa [List.drop_take, List.drop_take, Nat.add_sub_cancel_left] at this

theorem exists_cons (h : Agree (n + 1) s t) :
    ∃ c s' t', s = c :: s' ∧ t = c :: t' ∧ Agree n s' t' := by
  cases s with
  | nil => exact absurd h.le_length (by simp)
  | cons c s =>
    have htake := h.take_eq
    cases t with
    | nil => simp at htake
    | cons d t =>
      rw [List.take_succ_cons, List.take_succ_cons, List.cons.injEq] at htake
      obtain ⟨rfl, htake⟩ := htake
      exact ⟨d, s, t, rfl, rfl, ⟨by simpa using h.le_length, htake⟩⟩

theorem head?_eq (h : Agree n s t) (hn : 1 ≤ n) : t.head? = s.head? := by
  obtain ⟨c, s', t', rfl, rfl, -⟩ := (h.mono (m := 0 + 1) hn).exists_cons
  rfl

/-- A run that ends among the common characters is the same. -/
theorem takeWhile_eq {p : Char → Bool} (h : Agree n s t) (hrun : (s.takeWhile p).length < n) :
    t.takeWhile p = s.takeWhile p := by
  induction n generalizing s t with
  | zero => omega
  | succ n ih =>
    obtain ⟨c, s', t', rfl, rfl, h'⟩ := h.exists_cons
    rw [List.takeWhile_cons, List.takeWhile_cons] at *
    split
    · rename_i hc
      rw [if_pos hc, List.length_cons] at hrun
      rw [ih h' (by omega)]
    · rfl

end Agree

/-! ### Turns -/

/-- Whether a character ends the name in an escape. -/
def namesOn (c : Char) : Bool :=
  c != '\x7d' && c != '\n'

theorem escapeLength_cons (q : Quotation) (c : Char) (s : List Char) :
    escapeLength q (c :: s) =
      if c = '\r' ∧ s.head? = some '\n' then 2
      else if c = 'N' ∧ s.head? = some '\x7b' ∧ (q.template && !q.raw) = true then
        3 + (s.tail.takeWhile namesOn).length
      else if q.template ∧ (c = '\x7b' ∨ c = '\x7d') then 0
      else 1 := by
  unfold escapeLength
  split
  · rename_i heq
    cases heq
  · rename_i heq
    cases heq
    rfl
  · rename_i heq
    cases heq
    cases q.template <;> cases q.raw <;> simp
    rfl
  · rename_i hreturn hname heq
    cases heq
    have hreturn : ¬ (c = '\r' ∧ s.head? = some '\n') := by
      rintro ⟨hc, hs⟩
      obtain ⟨tail, rfl⟩ := List.head?_eq_some_iff.mp hs
      exact hreturn tail hc rfl
    have hname : ¬ (c = 'N' ∧ s.head? = some '\x7b' ∧ (q.template && !q.raw) = true) := by
      rintro ⟨hc, hs, -⟩
      obtain ⟨tail, rfl⟩ := List.head?_eq_some_iff.mp hs
      exact hname tail hc rfl
    rw [if_neg hreturn, if_neg hname]
    simp

/-- A backslash looks no further than the characters that it takes and one behind them. -/
theorem escapeLength_eq (q : Quotation) (h : Agree (escapeLength q s + 1) s t) :
    escapeLength q t = escapeLength q s := by
  obtain ⟨c, s, t, rfl, rfl, h'⟩ := h.exists_cons
  rw [escapeLength_cons] at h'
  rw [escapeLength_cons, escapeLength_cons]
  by_cases hbrace : q.template ∧ (c = '\x7b' ∨ c = '\x7d')
  · have hreturn : c ≠ '\r' := by
      rintro rfl
      simp at hbrace
    have hname : c ≠ 'N' := by
      rintro rfl
      simp at hbrace
    simp [hreturn, hname, hbrace]
  · rw [if_neg hbrace] at h' ⊢
    have hhead : t.head? = s.head? := h'.head?_eq (by split_ifs <;> omega)
    rw [hhead]
    split_ifs at h' ⊢ with hreturn hname
    · rfl
    · have hmore := h'.mono (m := 2 + (s.tail.takeWhile namesOn).length + 1) (by omega)
      obtain ⟨d, s, t, rfl, rfl, h''⟩ := hmore.exists_cons
      rw [List.tail_cons] at h''
      rw [List.tail_cons, List.tail_cons, h''.takeWhile_eq (by omega)]
    · rfl

/-- In the text of a string. -/
theorem Quotation.turn_eq {q : Quotation} {outer levels : List Level} {n : Nat}
    (h : q.turn outer c s = some (levels, n)) (hagree : Agree (n + weight levels) s t) :
    q.turn outer c t = some (levels, n) := by
  have hpos := (Level.text q).weight_pos
  rw [turn] at h ⊢
  by_cases hslash : c = '\\'
  · rw [if_pos hslash] at h ⊢
    cases h
    rw [escapeLength_eq q (hagree.mono (by rw [weight]; omega))]
  rw [if_neg hslash] at h ⊢
  by_cases hmark : c = q.mark
  · rw [if_pos hmark] at h ⊢
    by_cases htriple : q.triple = true
    · rw [if_pos htriple] at h ⊢
      -- Two more marks are taken, or the string goes on and takes three.
      have htwo : 2 ≤ n + weight levels := by
        split_ifs at h <;> cases h
        · omega
        · rw [weight, Level.weight, if_pos htriple]
          omega
      rwa [(hagree.mono htwo).take_eq]
    · rwa [if_neg htriple] at h ⊢
  rw [if_neg hmark] at h ⊢
  by_cases hfeed : c = '\n' ∧ q.triple = false
  · rw [if_pos hfeed] at h
    cases h
  rw [if_neg hfeed] at h ⊢
  by_cases hbrace : q.template ∧ (c = '\x7b' ∨ c = '\x7d')
  · rw [if_pos hbrace] at h ⊢
    have hone : 1 ≤ n + weight levels := by
      split_ifs at h <;> cases h
      · omega
      all_goals
        simp only [weight]
        omega
    rwa [hagree.head?_eq hone]
  · rwa [if_neg hbrace] at h ⊢

theorem quotation?_cons_of_not_isMark (h : isMark c = false) (flags s : List Char) :
    quotation? flags (c :: s) = none := by
  simp [quotation?, h]

theorem exists_quotation? (h : isMark c = true) (flags s : List Char) :
    ∃ q n, quotation? flags (c :: s) = some (q, n) := by
  simp [quotation?, h]

theorem quotation?_cons_eq (flags : List Char) (h : t.take 2 = s.take 2) :
    quotation? flags (c :: t) = quotation? flags (c :: s) := by
  simp only [quotation?, h]

/-- In a hole. -/
theorem holeTurn_eq {depth : Nat} {name : List Char} {outer : List Level}
    (hagree :
      Agree ((holeTurn depth name outer c s).2 + weight (holeTurn depth name outer c s).1) s t) :
    holeTurn depth name outer c t = holeTurn depth name outer c s := by
  cases hmark : isMark c with
  | true =>
    -- The string that begins takes a character, and the hole around it another.
    have htwo : 2 ≤ weight (holeTurn depth name outer c s).1 := by
      obtain ⟨q, n, hq⟩ := exists_quotation? hmark (if name.all isFlag then name else []) s
      have := (Level.text q).weight_pos
      simp only [holeTurn, hq, weight, Level.weight] at this ⊢
      omega
    rw [holeTurn, holeTurn, quotation?_cons_eq _ (hagree.mono (by omega)).take_eq]
    simp [quotation?, hmark]
  | false =>
    by_cases hcolon : c = ':'
    · have hone : 1 ≤ weight (holeTurn depth name outer c s).1 := by
        subst hcolon
        simp only [holeTurn, quotation?_cons_of_not_isMark hmark]
        split_ifs <;> simp_all [weight, Level.weight]
      simp only [holeTurn, quotation?_cons_of_not_isMark hmark, hagree.head?_eq (by omega)]
    · simp only [holeTurn, quotation?_cons_of_not_isMark hmark, hcolon, false_and]

/-- A turn looks no further than the characters that it takes and those that the levels take that
are open then. -/
theorem turn_eq {level : Level} {outer levels : List Level} {n : Nat}
    (h : level.turn outer c s = some (levels, n)) (hagree : Agree (n + weight levels) s t) :
    level.turn outer c t = some (levels, n) := by
  cases level with
  | text q => exact Quotation.turn_eq h hagree
  | hole depth name =>
    obtain ⟨rfl, rfl⟩ := Prod.mk.inj (Option.some.inj h)
    exact congrArg some (holeTurn_eq hagree)
  | layout => exact h

theorem Quotation.weight_le_of_turn {q : Quotation} {outer levels : List Level} {n : Nat}
    (h : q.turn outer c s = some (levels, n)) :
    weight (.text q :: outer) ≤ 1 + n + weight levels := by
  rw [turn] at h
  split_ifs at h with hslash hmark htriple
  all_goals cases h
  all_goals simp_all only [weight, Level.weight, if_true, Bool.false_eq_true, if_false]
  all_goals omega

theorem weight_le_holeTurn (depth : Nat) (name : List Char) (outer : List Level) (c : Char)
    (s : List Char) : weight (.hole depth name :: outer) ≤
      1 + (holeTurn depth name outer c s).2 + weight (holeTurn depth name outer c s).1 := by
  unfold holeTurn
  split
  · simp only [weight, Level.weight]
    omega
  · split_ifs <;> simp only [weight, Level.weight] <;> omega

/-- A turn takes at least what its level has still to take. -/
theorem weight_le_of_turn {level : Level} {outer levels : List Level} {n : Nat}
    (h : level.turn outer c s = some (levels, n)) :
    weight (level :: outer) ≤ 1 + n + weight levels := by
  cases level with
  | text q => exact Quotation.weight_le_of_turn h
  | hole depth name =>
    obtain ⟨rfl, rfl⟩ := Prod.mk.inj (Option.some.inj h)
    exact weight_le_holeTurn depth name outer c s
  | layout =>
    rw [Level.turn] at h
    split_ifs at h
    all_goals cases h
    all_goals simp only [weight, Level.weight]
    all_goals omega

/-! ### The length of a string -/

/-- The characters up to where all levels have ended settle where that is. -/
theorem lengthFrom_eq {levels : List Level} {done n : Nat} (h : lengthFrom levels done s = some n) :
    done + weight levels ≤ n ∧ ∀ t, Agree (n - done) s t → lengthFrom levels done t = some n := by
  fun_induction lengthFrom levels done s generalizing n with
  | case1 done s =>
    cases h
    exact ⟨Nat.le_refl _, fun t _ => by rw [lengthFrom]⟩
  | case2 => cases h
  | case3 => cases h
  | case4 done level outer c s levels taken hturn ih =>
    obtain ⟨hle, hsame⟩ := ih h
    have hweight := weight_le_of_turn hturn
    refine ⟨by omega, fun t hagree => ?_⟩
    have hsplit : n - done = (taken + (n - (done + 1 + taken))) + 1 := by omega
    rw [hsplit] at hagree
    obtain ⟨d, s', t', heq, rfl, hagree⟩ := hagree.exists_cons
    obtain ⟨rfl, rfl⟩ := List.cons.inj heq
    have hturn' := turn_eq hturn (hagree.mono (by omega))
    rw [lengthFrom, hturn']
    exact hsame _ hagree.drop

/-! ### The beginning of a string -/

theorem isFlag_eq_false_of_isMark (h : isMark c = true) : isFlag c = false := by
  simp only [isMark, Bool.or_eq_true, beq_iff_eq] at h
  rcases h with (rfl | rfl) | rfl <;> decide

theorem plainScan_ne_string (s : List Char) : (plainScan s).1 ≠ .string := by
  unfold plainScan
  split
  · simp
  · split_ifs <;> try simp
    split <;> simp

theorem mark_of_quotation? {flags : List Char} {q : Quotation} {n : Nat}
    (hq : quotation? flags (c :: s) = some (q, n)) : q.mark = c ∧ isMark c = true := by
  rw [quotation?] at hq
  split_ifs at hq with hmark
  obtain ⟨rfl, -⟩ := Prod.mk.inj (Option.some.inj hq)
  exact ⟨rfl, hmark⟩

/-- A mark behind flags begins a string, or what is stray if the string never ends. -/
theorem scan_flags_append {flags : List Char} (hflags : ∀ d ∈ flags, isFlag d = true)
    {q : Quotation} {n : Nat} (hq : quotation? flags (c :: s) = some (q, n)) :
    scan (flags ++ c :: s) =
      (q.length? n (c :: s)).elim
        (.stray, flags.length +
          if q.triple then (c :: s).length else ((c :: s).takeWhile (· != '\n')).length)
        fun taken => (.string, flags.length + taken) := by
  have hc := (mark_of_quotation? hq).2
  have hrun : (flags ++ c :: s).takeWhile isFlag = flags := by
    rw [List.takeWhile_append_of_pos hflags, List.takeWhile_cons, isFlag_eq_false_of_isMark hc]
    simp
  obtain ⟨d, ds, hcons⟩ := List.exists_cons_of_ne_nil (l := flags ++ c :: s) (by simp)
  have hscan : scan (flags ++ c :: s) =
      (stringLength flags (c :: s)).elim (plainScan (flags ++ c :: s))
        fun seen => (seen.1, flags.length + seen.2) := by
    rw [hcons, scan, ← hcons, hrun, List.drop_left, hcons]
    cases stringLength flags (c :: s) <;> rfl
  rw [hscan, stringLength, hq]
  cases hlength : q.length? n (c :: s) <;> simp [hlength]

theorem scan_eq_string_iff {flags : List Char} (hflags : ∀ d ∈ flags, isFlag d = true)
    {q : Quotation} {n length : Nat} (hq : quotation? flags (c :: s) = some (q, n)) :
    scan (flags ++ c :: s) = (.string, length) ↔
      ∃ taken, q.length? n (c :: s) = some taken ∧ length = flags.length + taken := by
  rw [scan_flags_append hflags hq]
  cases q.length? n (c :: s) with
  | none => simp
  | some taken =>
    simp only [Option.elim_some, Option.some.injEq, exists_eq_left', Prod.mk.injEq, true_and]
    exact eq_comm

/-- What opens a string begins with flags and a mark. -/
theorem exists_of_opensString (h : opensString s = true) :
    ∃ flags c x, s = flags ++ c :: x ∧ (∀ d ∈ flags, isFlag d = true) ∧ isMark c = true := by
  rw [opensString] at h
  cases hrest : s.dropWhile isFlag with
  | nil => simp [hrest] at h
  | cons c x =>
    refine ⟨s.takeWhile isFlag, c, x, ?_, fun d hd => List.mem_takeWhile_imp hd, ?_⟩
    · rw [← hrest, List.takeWhile_append_dropWhile]
    · simpa [hrest] using h

theorem opensString_of_scan_eq_string {n : Nat} (h : scan s = (.string, n)) :
    opensString s = true := by
  by_contra hopens
  rw [scan_eq_plainScan (by simpa using hopens)] at h
  exact plainScan_ne_string s (congrArg Prod.fst h)

/-- What opens a string is one, or is stray. -/
theorem scan_of_opensString (h : opensString s = true) :
    (scan s).1 = .string ∨ (scan s).1 = .stray := by
  obtain ⟨flags, c, x, rfl, hflags, hc⟩ := exists_of_opensString h
  obtain ⟨q, n, hq⟩ := exists_quotation? hc flags x
  rw [scan_flags_append hflags hq]
  cases q.length? n (c :: x) with
  | none => exact .inr rfl
  | some taken => exact .inl rfl

/-! ### Where the outermost string ends -/

theorem holeTurn_suffix (depth : Nat) (name : List Char) (outer : List Level) (c : Char)
    (s : List Char) : outer <:+ (holeTurn depth name outer c s).1 := by
  unfold holeTurn
  split
  · exact ⟨[_, _], rfl⟩
  · split_ifs
    all_goals first
      | exact List.suffix_rfl
      | exact List.suffix_cons _ _

/-- A turn leaves the levels around its own. -/
theorem suffix_of_turn {level : Level} {outer levels : List Level} {n : Nat}
    (h : level.turn outer c s = some (levels, n)) : outer <:+ levels := by
  cases level with
  | text q =>
    rw [Level.turn, Quotation.turn] at h
    split_ifs at h
    all_goals cases h
    all_goals first
      | exact List.suffix_rfl
      | exact List.suffix_cons _ _
      | exact ⟨[_, _], rfl⟩
  | hole depth name =>
    obtain ⟨rfl, rfl⟩ := Prod.mk.inj (Option.some.inj h)
    exact holeTurn_suffix depth name outer c s
  | layout =>
    rw [Level.turn] at h
    split_ifs at h
    all_goals cases h
    all_goals first
      | exact List.suffix_rfl
      | exact List.suffix_cons _ _
      | exact ⟨[_, _], rfl⟩

/-- In the text of the outermost string a turn leaves that string open, or it meets a mark of the
string and takes the marks that end it. -/
theorem Quotation.turn_outermost {q : Quotation} {levels : List Level} {n : Nat}
    (h : q.turn [] c s = some (levels, n)) : levels.getLast? = some (.text q) ∨
      levels = [] ∧ c = q.mark ∧ s.take n = List.replicate n c ∧ n ≤ s.length := by
  rw [turn] at h
  by_cases hmark : c = q.mark
  · by_cases htriple : q.triple = true
    · by_cases htwo : s.take 2 = [c, c]
      · have hlength := congrArg List.length htwo
        rw [List.length_take, List.length_cons, List.length_singleton] at hlength
        split_ifs at h
        all_goals cases h
        · exact .inl rfl
        · exact .inr ⟨rfl, hmark, htwo, by omega⟩
      · split_ifs at h
        all_goals cases h
        all_goals exact .inl rfl
    · split_ifs at h
      all_goals cases h
      · exact .inl rfl
      · exact .inr ⟨rfl, hmark, rfl, Nat.zero_le _⟩
  · split_ifs at h
    all_goals cases h
    all_goals exact .inl rfl

/-- A string ends with its mark, and in the text. -/
theorem getLast?_of_lengthFrom {levels : List Level} {done n : Nat} {q : Quotation}
    (h : lengthFrom levels done s = some n) (hlast : levels.getLast? = some (.text q)) :
    n - done ≤ s.length ∧ (s.take (n - done)).getLast? = some q.mark := by
  fun_induction lengthFrom levels done s generalizing n with
  | case1 => cases hlast
  | case2 => cases h
  | case3 => cases h
  | case4 done level outer c s levels taken hturn ih =>
    have hcases : levels.getLast? = some (.text q) ∨
        levels = [] ∧ c = q.mark ∧ s.take taken = List.replicate taken c ∧ taken ≤ s.length := by
      cases outer with
      | nil =>
        obtain rfl : level = .text q := by simpa using hlast
        exact Quotation.turn_outermost hturn
      | cons next outer =>
        obtain ⟨before, rfl⟩ := suffix_of_turn hturn
        left
        rw [List.getLast?_cons_cons] at hlast
        simp [List.getLast?_append, hlast]
    have hle := (lengthFrom_eq h).1
    rcases hcases with hlast | ⟨rfl, hmark, htake, htaken⟩
    · obtain ⟨hrest, hmark⟩ := ih h hlast
      -- The characters that the turn takes stand before those that the levels take.
      have hsplit : n - done = (taken + (n - (done + 1 + taken))) + 1 := by
        have hne : levels ≠ [] := by
          rintro rfl
          cases hlast
        omega
      have htaken : taken < s.length := by
        by_contra hge
        rw [List.drop_eq_nil_of_le (by omega)] at hmark
        simp at hmark
      rw [List.length_drop] at hrest
      rw [hsplit, List.take_succ_cons, List.take_add]
      refine ⟨by rw [List.length_cons]; omega, ?_⟩
      rw [← List.cons_append, List.getLast?_append, hmark]
      rfl
    · rw [lengthFrom] at h
      obtain rfl := Option.some.inj h
      have hsplit : done + 1 + taken - done = taken + 1 := by omega
      rw [hsplit, List.take_succ_cons, htake, hmark, List.length_cons]
      refine ⟨by omega, ?_⟩
      rw [← List.replicate_succ, List.getLast?_replicate]
      simp

/-! ### Strings in a text -/

/-- A string whose mark is not triple takes two characters, and any other takes six. -/
theorem le_length_of_quotation? {flags : List Char} {q : Quotation} {n taken : Nat}
    (hq : quotation? flags (c :: s) = some (q, n)) (h : q.length? n (c :: s) = some taken) :
    if q.triple then n = 3 ∧ 6 ≤ taken else n = 1 ∧ 2 ≤ taken := by
  have hle := (lengthFrom_eq h).1
  have hn : n = if q.triple then 3 else 1 := by
    rw [quotation?] at hq
    split_ifs at hq with hmark
    obtain ⟨rfl, rfl⟩ := Prod.mk.inj (Option.some.inj hq)
    rfl
  simp only [weight, Level.weight] at hle
  split_ifs at hn hle ⊢ <;> omega

/-- A string has at least two characters, and its last one is a mark. -/
theorem string_bounds {n : Nat} (h : scan s = (.string, n)) :
    2 ≤ n ∧ n ≤ s.length ∧ ∃ mark, (s.take n).getLast? = some mark ∧ isMark mark = true := by
  obtain ⟨flags, c, x, rfl, hflags, hc⟩ := exists_of_opensString (opensString_of_scan_eq_string h)
  obtain ⟨q, m, hq⟩ := exists_quotation? hc flags x
  obtain ⟨taken, htaken, rfl⟩ := (scan_eq_string_iff hflags hq).mp h
  have hle := le_length_of_quotation? hq htaken
  obtain ⟨hlength, hlast⟩ := getLast?_of_lengthFrom htaken rfl
  have hm : m < (c :: x).length := by
    by_contra hge
    rw [List.drop_eq_nil_of_le (by omega)] at hlast
    simp at hlast
  have htwo : m + (taken - m) = taken ∧ 2 ≤ taken := by
    split_ifs at hle <;> omega
  rw [List.length_drop] at hlength
  rw [List.length_append]
  refine ⟨by omega, by omega, q.mark, ?_, ?_⟩
  · rw [List.take_length_add_append, ← htwo.1, List.take_add, List.getLast?_append,
      List.getLast?_append, hlast]
    rfl
  · rw [(mark_of_quotation? hq).1]
    exact hc

/-- What begins a string does not depend on what stands behind the string. -/
theorem quotation?_append {flags body rest rest' : List Char} {q : Quotation} {n : Nat}
    (hc : isMark c = true) (hq : quotation? flags (c :: (body ++ rest)) = some (q, n))
    (hbody : if q.triple then 5 ≤ body.length else 1 ≤ body.length)
    (hrest' : ∀ d ∈ rest'.head?, isMark d = true → rest.head? = some d) :
    quotation? flags (c :: (body ++ rest')) = some (q, n) := by
  rw [← hq]
  match body with
  | [] => split_ifs at hbody <;> simp at hbody
  | [d] =>
    -- The string has two marks and no characters, or no second mark.
    have htriple : q.triple = false := by
      by_contra hne
      rw [if_pos (by simpa using hne)] at hbody
      simp at hbody
    have hold : (c != '\x60' && (d :: rest).take 2 == [c, c]) = false := by
      rw [quotation?, if_pos hc] at hq
      rw [← htriple, ← (Prod.mk.inj (Option.some.inj hq)).1]
      rfl
    have hnew : (c != '\x60' && (d :: rest').take 2 == [c, c]) = false := by
      rw [Bool.eq_false_iff]
      intro hthree
      simp only [Bool.and_eq_true, bne_iff_ne, beq_iff_eq] at hthree
      have hhead : rest'.head? = some c := by
        cases rest' with
        | nil => simp at hthree
        | cons e rest' => simp_all
      obtain ⟨rest, rfl⟩ := List.head?_eq_some_iff.mp (hrest' c hhead hc)
      simp [hthree] at hold
      simp_all
    simp only [quotation?, List.singleton_append, hold, hnew]
  | d :: e :: body => exact quotation?_cons_eq flags rfl

/-- **What a string is does not depend on what stands behind it**, unless that makes two marks into
three. -/
theorem scan_string {text rest rest' : List Char}
    (h : scan (text ++ rest) = (.string, text.length))
    (hrest' : ∀ c ∈ rest'.head?, isMark c = true → rest.head? = some c) :
    scan (text ++ rest') = (.string, text.length) := by
  obtain ⟨flags, c, x, hsplit, hflags, hc⟩ :=
    exists_of_opensString (opensString_of_scan_eq_string h)
  obtain ⟨q, n, hq⟩ := exists_quotation? hc flags x
  rw [hsplit] at h
  obtain ⟨taken, htaken, hlength⟩ := (scan_eq_string_iff hflags hq).mp h
  have hle := le_length_of_quotation? hq htaken
  -- The string reaches beyond the mark that begins it.
  obtain ⟨body, rfl, rfl⟩ : ∃ body, text = flags ++ c :: body ∧ x = body ++ rest := by
    rcases List.append_eq_append_iff.mp hsplit with ⟨more, rfl, hmore⟩ | ⟨more, rfl, hmore⟩
    · rw [List.length_append] at hlength
      split_ifs at hle <;> omega
    · cases more with
      | nil =>
        rw [List.length_append, List.length_nil] at hlength
        split_ifs at hle <;> omega
      | cons d body =>
        obtain ⟨rfl, rfl⟩ := List.cons.inj hmore
        exact ⟨body, rfl, rfl⟩
  have hbody : taken = body.length + 1 := by
    rw [List.length_append, List.length_cons] at hlength
    omega
  have hquotation : quotation? flags (c :: (body ++ rest')) = some (q, n) :=
    quotation?_append hc hq (by split_ifs at hle ⊢ <;> omega) hrest'
  rw [List.append_assoc, List.cons_append, scan_eq_string_iff hflags hquotation]
  refine ⟨taken, ?_, hlength⟩
  have hagree : Agree (n + (taken - n)) (c :: (body ++ rest)) (c :: (body ++ rest')) := by
    have htake : n + (taken - n) = (c :: body).length := by
      rw [List.length_cons]
      split_ifs at hle <;> omega
    rw [htake]
    exact .append (c :: body) rest rest'
  exact (lengthFrom_eq htaken).2 _ hagree.drop

end Scriptorium.Script
