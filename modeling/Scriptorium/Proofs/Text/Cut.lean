/-
Where cuts are made: a run of characters of one class ends at the first character outside it, and
trimming takes the runs at both ends.

Nothing is cut inside a text whose ends are left alone, and it does not matter which end is cut
first. The last character that is not blank (`lastSolid`) is what a trimmed text ends with. Trimming
marks of one kind takes all of them at both ends (`trimWhile_beq_eq_iff`).
-/

import Mathlib.Data.List.DropRight
import Scriptorium.Text.Blank

namespace Scriptorium.Text

variable {p : Char → Bool} {s rest : List Char}

theorem takeWhile_append (hs : ∀ c ∈ s, p c = true) (hrest : ∀ c ∈ rest.head?, p c = false) :
    (s ++ rest).takeWhile p = s := by
  rw [List.takeWhile_append_of_pos hs]
  cases rest with
  | nil => simp
  | cons c rest => simp [hrest c rfl]

theorem dropWhile_append (hs : ∀ c ∈ s, p c = true) (hrest : ∀ c ∈ rest.head?, p c = false) :
    (s ++ rest).dropWhile p = rest := by
  rw [List.dropWhile_append_of_pos hs]
  cases rest with
  | nil => simp
  | cons c rest => simp [hrest c rfl]

/-- A run does not reach over a character outside the class, whatever stands behind it. -/
theorem takeWhile_append_cons {α : Type*} {p : α → Bool} {c : α} (hc : p c = false)
    (s t : List α) :
    (s ++ c :: t).takeWhile p = s.takeWhile p := by
  induction s with
  | nil => simp [hc]
  | cons a s ih => rw [List.cons_append, List.takeWhile_cons, List.takeWhile_cons, ih]

theorem dropWhile_append_cons {α : Type*} {p : α → Bool} {c : α} (hc : p c = false)
    (s t : List α) :
    (s ++ c :: t).dropWhile p = s.dropWhile p ++ c :: t := by
  induction s with
  | nil => simp [hc]
  | cons a s ih =>
    rw [List.cons_append, List.dropWhile_cons, List.dropWhile_cons, ih]
    split <;> rfl

/-! ### Beginnings -/

theorem mem_head?_of_isPrefix {c : Char} (h : s <+: rest) (hc : c ∈ s.head?) : c ∈ rest.head? := by
  obtain ⟨t, rfl⟩ := h
  cases s with
  | nil => cases hc
  | cons a s => exact hc

/-- A run is the same in every beginning of a text that holds it. -/
theorem takeWhile_of_isPrefix {t : List Char} (hrun : s.takeWhile p <+: t) (ht : t <+: s) :
    t.takeWhile p = s.takeWhile p := by
  obtain ⟨u, rfl⟩ := ht
  rw [List.takeWhile_append] at hrun ⊢
  split
  · rename_i hall
    rw [if_pos hall] at hrun
    have hu : u.takeWhile p = [] := by
      have := hrun.length_le
      rw [List.length_append] at this
      exact List.length_eq_zero_iff.mp (by omega)
    rw [hu, List.append_nil]
    exact (List.takeWhile_prefix p).eq_of_length hall
  · rfl

/-- A run ends where it ended, wherever the text behind it is cut off. -/
theorem takeWhile_append_of_isPrefix {t : List Char} (ht : t <+: s.dropWhile p) :
    (s.takeWhile p ++ t).takeWhile p = s.takeWhile p ∧
      (s.takeWhile p ++ t).dropWhile p = t := by
  have hrun : ∀ c ∈ s.takeWhile p, p c = true := List.all_eq_true.mp List.all_takeWhile
  have hstop : ∀ c ∈ t.head?, p c = false := by
    intro c hc
    have hhead := List.head?_dropWhile_not p s
    rwa [mem_head?_of_isPrefix ht hc] at hhead
  exact ⟨takeWhile_append hrun hstop, dropWhile_append hrun hstop⟩

/-! ### Trimming -/

/-- Trimming takes what stands around a text whose ends it leaves alone. -/
theorem trimWhile_append {before after : List Char} (hbefore : ∀ c ∈ before, p c = true)
    (hafter : ∀ c ∈ after, p c = true) (hhead : ∀ c ∈ s.head?, p c = false)
    (hlast : ∀ c ∈ s.getLast?, p c = false) : trimWhile p (before ++ (s ++ after)) = s := by
  cases s with
  | nil =>
    have hall : ∀ c ∈ before ++ after, p c = true := by
      intro c hc
      rcases List.mem_append.mp hc with hc | hc
      · exact hbefore c hc
      · exact hafter c hc
    have hdrop : (before ++ after ++ []).dropWhile p = [] := dropWhile_append hall (by simp)
    rw [List.append_nil] at hdrop
    rw [List.nil_append, trimWhile, hdrop]
    rfl
  | cons c s =>
    have hdrop : (before ++ (c :: s ++ after)).dropWhile p = c :: s ++ after :=
      dropWhile_append hbefore fun a ha => hhead a ha
    have hreverse : (after.reverse ++ (c :: s).reverse).dropWhile p = (c :: s).reverse := by
      refine dropWhile_append (fun a ha => hafter a (List.mem_reverse.mp ha)) fun a ha => ?_
      rw [List.head?_reverse] at ha
      exact hlast a ha
    rw [trimWhile, hdrop, dropRightWhile, List.reverse_append, hreverse, List.reverse_reverse]

theorem trimWhile_of_ends (hhead : ∀ c ∈ s.head?, p c = false)
    (hlast : ∀ c ∈ s.getLast?, p c = false) : trimWhile p s = s := by
  have htrim : trimWhile p ([] ++ (s ++ [])) = s := trimWhile_append (by simp) (by simp) hhead hlast
  simpa using htrim

theorem head_dropWhile (s : List Char) : ∀ c ∈ (s.dropWhile p).head?, p c = false := by
  intro c hc
  have := List.head?_dropWhile_not p s
  rwa [hc] at this

/-- What is left of a trimmed text does not begin with a character that is trimmed. -/
theorem head_trimWhile (s : List Char) : ∀ c ∈ (trimWhile p s).head?, p c = false := by
  intro c hc
  have hbegin : trimWhile p s <+: s.dropWhile p := by
    have hsuffix := List.dropWhile_suffix (l := (s.dropWhile p).reverse) p
    simpa [trimWhile, dropRightWhile] using List.reverse_prefix.mpr hsuffix
  obtain ⟨t, ht⟩ := hbegin
  cases htrim : trimWhile p s with
  | nil => simp [htrim] at hc
  | cons a rest =>
    rw [htrim] at hc ht
    refine head_dropWhile s c ?_
    rw [← ht]
    exact hc

theorem last_dropRightWhile (s : List Char) :
    ∀ c ∈ (dropRightWhile p s).getLast?, p c = false := by
  intro c hc
  rw [dropRightWhile, List.getLast?_reverse] at hc
  exact head_dropWhile _ c hc

/-- What is left of a trimmed text does not end with a character that is trimmed. -/
theorem last_trimWhile (s : List Char) : ∀ c ∈ (trimWhile p s).getLast?, p c = false :=
  last_dropRightWhile (s.dropWhile p)

/-- Trimming leaves exactly those texts alone whose ends it would not take. -/
theorem trimWhile_eq_self_iff : trimWhile p s = s ↔
    (∀ c ∈ s.head?, p c = false) ∧ ∀ c ∈ s.getLast?, p c = false := by
  refine ⟨fun h => ?_, fun ⟨hhead, hlast⟩ => trimWhile_of_ends hhead hlast⟩
  rw [← h]
  exact ⟨head_trimWhile s, last_trimWhile s⟩

theorem trim_subset (s : List Char) : trim s ⊆ s := fun _ hc =>
  (List.dropWhile_sublist _).subset ((List.rdropWhile_prefix _ _).subset hc)

/-! ### The right end -/

section

variable {α : Type*} {q : α → Bool}

theorem rdropWhile_append {l : List α} (hl : ∀ a ∈ l.getLast?, q a = false) (m : List α) :
    (l ++ m).rdropWhile q = l ++ m.rdropWhile q := by
  induction m using List.reverseRecOn with
  | nil =>
    rw [List.append_nil, List.rdropWhile_nil, List.append_nil, List.rdropWhile_eq_self_iff]
    intro hne
    simp [hl _ (List.getLast?_eq_some_getLast hne)]
  | append_singleton m a ih =>
    rw [← List.append_assoc, List.rdropWhile_concat, List.rdropWhile_concat, ih]
    split <;> simp

/-- It does not matter which end is cut first. -/
theorem dropWhile_rdropWhile {p : α → Bool} (l : List α) :
    (l.rdropWhile q).dropWhile p = (l.dropWhile p).rdropWhile q := by
  induction l using List.reverseRecOn with
  | nil => rfl
  | append_singleton l a ih =>
    rw [List.rdropWhile_concat, List.dropWhile_append]
    by_cases ha : q a = true
    · rw [if_pos ha, ih]
      split
      · rename_i hempty
        rw [List.isEmpty_iff] at hempty
        cases hp : p a <;> simp [hempty, hp, ha, List.rdropWhile]
      · rw [List.rdropWhile_concat_pos _ _ _ ha]
    · rw [if_neg ha, List.dropWhile_append]
      split
      · rename_i hempty
        rw [List.isEmpty_iff] at hempty
        cases hp : p a <;> simp [hp, ha, List.rdropWhile]
      · rw [List.rdropWhile_concat_neg _ _ _ ha]

end

theorem dropRightWhile_eq (p : Char → Bool) (s : List Char) :
    dropRightWhile p s = s.rdropWhile p := rfl

theorem dropRightWhile_append (hlast : ∀ c ∈ s.getLast?, p c = false) (t : List Char) :
    dropRightWhile p (s ++ t) = s ++ dropRightWhile p t :=
  rdropWhile_append hlast t

theorem dropRightWhile_of_last (hlast : ∀ c ∈ s.getLast?, p c = false) :
    dropRightWhile p s = s := by
  have happend := dropRightWhile_append hlast []
  rwa [List.append_nil, dropRightWhile_eq, dropRightWhile_eq, List.rdropWhile_nil,
    List.append_nil] at happend

theorem isPrefix_dropRightWhile (p : Char → Bool) (s : List Char) : dropRightWhile p s <+: s :=
  List.rdropWhile_prefix p s

/-- Behind a text whose ends are left alone, trimming takes only the end. -/
theorem trimWhile_append_right (before : List Char) (hbefore : ∀ c ∈ before, p c = true)
    (hne : s ≠ []) (hhead : ∀ c ∈ s.head?, p c = false) (hlast : ∀ c ∈ s.getLast?, p c = false)
    (t : List Char) : trimWhile p (before ++ (s ++ t)) = s ++ dropRightWhile p t := by
  have hdrop : (before ++ (s ++ t)).dropWhile p = s ++ t := by
    refine dropWhile_append hbefore ?_
    rw [List.head?_append_of_ne_nil _ hne]
    exact hhead
  rw [trimWhile, hdrop, dropRightWhile_append hlast]

/-! ### Blanks at the ends -/

theorem trim_trimRight (s : List Char) : trim (trimRight s) = trim s := by
  have hcut : ((s.rdropWhile isBlank).dropWhile isBlank).rdropWhile isBlank =
      (s.dropWhile isBlank).rdropWhile isBlank := by
    rw [dropWhile_rdropWhile, List.rdropWhile_idempotent]
  exact hcut

theorem trimLeft_append_cons {c : Char} (hc : isBlank c = false) (s t : List Char) :
    trimLeft (s ++ c :: t) = trimLeft s ++ c :: t :=
  dropWhile_append_cons hc s t

theorem trimRight_append_cons {c : Char} (hc : isBlank c = false) (s t : List Char) :
    trimRight (s ++ c :: t) = s ++ c :: trimRight t := by
  have hcut := dropRightWhile_append (p := isBlank) (s := s ++ [c]) (by simp [hc]) t
  rwa [List.append_assoc, List.append_assoc] at hcut

/-- The two sides of a character that is not blank are trimmed apart. -/
theorem trim_append_cons {c : Char} (hc : isBlank c = false) (s t : List Char) :
    trim (s ++ c :: t) = trimLeft s ++ c :: trimRight t := by
  have htrim : trim (s ++ c :: t) = trimRight (trimLeft (s ++ c :: t)) := rfl
  rw [htrim, trimLeft_append_cons hc, trimRight_append_cons hc]

theorem trim_cons_of_not_blank {c : Char} (hc : isBlank c = false) (s : List Char) :
    trim (c :: s) = c :: trimRight s :=
  trim_append_cons hc [] s

theorem trim_ne_nil {c : Char} (hc : isBlank c = false) (hmem : c ∈ s) : trim s ≠ [] := by
  obtain ⟨front, rest, rfl⟩ := List.append_of_mem hmem
  rw [trim_append_cons hc]
  exact List.append_ne_nil_of_right_ne_nil _ (List.cons_ne_nil _ _)

theorem trim_cons_of_isBlank {c : Char} (h : isBlank c = true) (s : List Char) :
    trim (c :: s) = trim s := by
  simp [trim, trimWhile, h]

theorem trim_concat_of_isBlank {c : Char} (h : isBlank c = true) (s : List Char) :
    trim (s ++ [c]) = trim s := by
  have hcut : trimRight (s ++ [c]) = trimRight s := List.rdropWhile_concat_pos isBlank s c h
  rw [← trim_trimRight, hcut, trim_trimRight]

/-! ### The last character that is not blank -/

/-- The last character that is not blank. -/
def lastSolid (s : List Char) : Option Char :=
  s.reverse.find? fun c => !isBlank c

theorem lastSolid_append (s t : List Char) :
    lastSolid (s ++ t) = (lastSolid t).or (lastSolid s) := by
  simp [lastSolid]

theorem lastSolid_cons (c : Char) (s : List Char) :
    lastSolid (c :: s) = (lastSolid s).or (if isBlank c then none else some c) := by
  cases h : isBlank c <;> simp [lastSolid, h]

theorem lastSolid_eq_none (h : ∀ c ∈ s, isBlank c = true) : lastSolid s = none := by
  simpa [lastSolid] using h

theorem getLast?_trimRight (s : List Char) : (trimRight s).getLast? = lastSolid s := by
  rw [trimRight, dropRightWhile, List.getLast?_reverse, lastSolid,
    List.find?_eq_head?_dropWhile_not]
  simp

theorem getLast?_trim (s : List Char) : (trim s).getLast? = lastSolid s := by
  have hleft : lastSolid s = (lastSolid (trimLeft s)).or (lastSolid (s.takeWhile isBlank)) := by
    rw [← lastSolid_append, trimLeft, List.takeWhile_append_dropWhile]
  have hblank : lastSolid (s.takeWhile isBlank) = none :=
    lastSolid_eq_none fun c hc => (List.mem_takeWhile_imp hc)
  rw [hleft, hblank, Option.or_none, ← getLast?_trimRight]
  rfl

/-! ### Marks at the ends -/

section Marks

variable {mark : Char}

theorem forall_mem_beq_eq_false_iff {o : Option Char} :
    (∀ c ∈ o, (c == mark) = false) ↔ o ≠ some mark := by
  cases o <;> simp

theorem exists_replicate_append_dropWhile (mark : Char) (s : List Char) :
    ∃ n, s = List.replicate n mark ++ s.dropWhile (· == mark) := by
  have hall : ∀ c ∈ s.takeWhile (· == mark), c = mark := by
    intro c hc
    simpa using List.mem_takeWhile_imp hc
  refine ⟨(s.takeWhile (· == mark)).length, ?_⟩
  rw [← List.eq_replicate_iff.mpr ⟨rfl, hall⟩, List.takeWhile_append_dropWhile]

theorem exists_dropRightWhile_append_replicate (mark : Char) (s : List Char) :
    ∃ n, s = dropRightWhile (· == mark) s ++ List.replicate n mark := by
  obtain ⟨n, hn⟩ := exists_replicate_append_dropWhile mark s.reverse
  refine ⟨n, ?_⟩
  conv_lhs => rw [← List.reverse_reverse s, hn, List.reverse_append, List.reverse_replicate]
  rfl

/-- One text is another between marks of a kind, which are all such marks at its ends. -/
structure IsBetween (mark : Char) (s t : List Char) : Prop where
  ends : ∃ m n, s = List.replicate m mark ++ (t ++ List.replicate n mark)
  head : t.head? ≠ some mark
  last : t.getLast? ≠ some mark

theorem IsBetween.self (hhead : s.head? ≠ some mark) (hlast : s.getLast? ≠ some mark) :
    IsBetween mark s s :=
  ⟨⟨0, 0, by simp⟩, hhead, hlast⟩

/-- Trimming marks of a kind leaves what is between them. -/
theorem trimWhile_beq_eq_iff {t : List Char} :
    trimWhile (· == mark) s = t ↔ IsBetween mark s t := by
  constructor
  · rintro rfl
    obtain ⟨m, hm⟩ := exists_replicate_append_dropWhile mark s
    obtain ⟨n, hn⟩ := exists_dropRightWhile_append_replicate mark (s.dropWhile (· == mark))
    refine ⟨⟨m, n, ?_⟩, forall_mem_beq_eq_false_iff.mp (head_trimWhile s),
      forall_mem_beq_eq_false_iff.mp (last_trimWhile s)⟩
    rw [trimWhile, ← hn, ← hm]
  · rintro ⟨⟨m, n, rfl⟩, hhead, hlast⟩
    exact trimWhile_append (by simp) (by simp) (forall_mem_beq_eq_false_iff.mpr hhead)
      (forall_mem_beq_eq_false_iff.mpr hlast)

end Marks

end Scriptorium.Text
