/-
The block of a manifest as the result of a search for a pattern, and by its place in the text.

The pattern of a block asks for an opening line with a closing mark behind it, as near as there is
one. A search for it gives up an opening line that is not closed and tries the next; a block is
looked for behind the first opening line only. Behind a later one there is only less text, so both
find the same (`map_captured_search`).
-/

import Mathlib.Data.Nat.Find
import Mathlib.Order.Bounds.Basic
import Scriptorium.Proofs.Manifest.Block
import Scriptorium.Proofs.Text.Pattern

namespace Scriptorium.Manifest

open Text (Match Pattern)

variable {c : Char} {mark s rest text : List Char}

/-! ### Places -/

/-- A line that opens a block stands at a place of a text and ends where the block starts. -/
def OpensAt (text : List Char) (place start : Nat) : Prop :=
  ∃ line ∈ openingLines, line <+: text.drop place ∧ start = place + line.length

/-- The block of a text starts behind the first line that opens one. -/
def StartsAt (text : List Char) (start : Nat) : Prop :=
  ∃ place, OpensAt text place start ∧ ∀ earlier < place, ∀ start, ¬OpensAt text earlier start

/-- The mark that closes a block stands at a place of a text. -/
def ClosesAt (text : List Char) (place : Nat) : Prop :=
  closingMark <+: text.drop place

/-- An occurrence has a place, from which there is room for it. -/
theorem exists_isPrefix_drop (h : mark <:+: s) :
    ∃ n, n + mark.length ≤ s.length ∧ mark <+: s.drop n := by
  obtain ⟨front, back, rfl⟩ := h
  refine ⟨front.length, ?_, ?_⟩
  · simp only [List.length_append]
    omega
  · rw [List.append_assoc, List.drop_left]
    exact List.prefix_append mark back

/-- What stands before the first place of a mark does not hold it. -/
theorem not_isInfix_take {n : Nat} (hmark : mark ≠ []) (h : ∀ m < n, ¬mark <+: s.drop m) :
    ¬mark <:+: s.take n := by
  intro hinside
  obtain ⟨m, hroom, hbegin⟩ := exists_isPrefix_drop hinside
  have hpos : 0 < mark.length := List.length_pos_iff.mpr hmark
  have hlength : (s.take n).length ≤ n := List.length_take_le n s
  rw [List.drop_take] at hbegin
  exact h m (by omega) (hbegin.trans (List.take_prefix _ _))

/-- A mark does not begin in a text that does not hold it, if its first character is only there once
and stands right behind the text. -/
theorem not_isPrefix_drop {x : Char} {tail front back : List Char} {m : Nat} (hx : x ∉ tail)
    (h : ¬x :: tail <:+: front) (hm : m < front.length) :
    ¬x :: tail <+: (front ++ x :: back).drop m := by
  intro hbegin
  rw [List.drop_append_of_le_length hm.le] at hbegin
  have hne : front.drop m ≠ [] := by
    rw [Ne, List.drop_eq_nil_iff]
    omega
  have hfront := isPrefix_of_anchored hx hne hbegin
  exact h (hfront.isInfix.trans (List.drop_suffix m front).isInfix)

/-! ### The closing mark -/

/-- What stands before a mark that has its first character only once ends at the first place of the
mark. -/
theorem before?_eq_some_iff {x : Char} {tail front : List Char} (hx : x ∉ tail) :
    before? (x :: tail) s = some front ↔
      ∃ n, IsLeast {n | x :: tail <+: s.drop n} n ∧ front = s.take n := by
  constructor
  · intro h
    obtain ⟨⟨rest, rfl⟩, hinside⟩ := exists_of_before? (List.cons_ne_nil x tail) h
    refine ⟨front.length, ⟨?_, fun m hm => ?_⟩, List.take_left.symm⟩
    · rw [Set.mem_ofPred_eq, List.drop_left]
      exact List.prefix_append _ rest
    · by_contra hlt
      exact not_isPrefix_drop hx hinside (not_le.mp hlt) hm
  · rintro ⟨n, ⟨⟨rest, hrest⟩, hleast⟩, rfl⟩
    have hinside : ¬x :: tail <:+: s.take n :=
      not_isInfix_take (List.cons_ne_nil x tail) fun m hm hbegin => (hleast hbegin).not_gt hm
    have hbefore : before? (x :: tail) (s.take n ++ (x :: tail ++ rest)) = some (s.take n) :=
      before?_append hx hinside
    rwa [hrest, List.take_append_drop] at hbefore

theorem before?_eq_none_iff (hmark : mark ≠ []) : before? mark s = none ↔ ¬mark <:+: s := by
  induction s with
  | nil => simp [before?, hmark]
  | cons c s ih =>
    rw [before?, List.infix_cons_iff, not_or, ← List.isPrefixOf_iff_prefix]
    split
    · simp [*]
    · simp [*]

/-! ### The opening line -/

theorem afterOpening?_eq_some_iff :
    afterOpening? text = some rest ↔ ∃ start, StartsAt text start ∧ rest = text.drop start := by
  constructor
  · intro h
    obtain ⟨front, line, hline, rfl, hfirst⟩ := exists_of_afterOpening? h
    refine ⟨front.length + line.length, ⟨front.length, ⟨line, hline, ?_, rfl⟩, ?_⟩, ?_⟩
    · rw [List.drop_left]
      exact List.prefix_append line rest
    · rintro earlier hearlier start ⟨other, hother, hbegin, _⟩
      obtain ⟨tail, rfl, _⟩ := openingLines_anchored hline
      obtain ⟨tail', rfl, htail'⟩ := openingLines_anchored hother
      exact not_isPrefix_drop htail' (hfirst _ hother) hearlier hbegin
    · rw [← List.append_assoc, ← List.length_append, List.drop_left]
  · rintro ⟨start, ⟨place, ⟨line, hline, ⟨t, ht⟩, rfl⟩, hearlier⟩, rfl⟩
    have hfirst : ∀ other ∈ openingLines, ¬other <:+: text.take place := by
      intro other hother
      obtain ⟨tail, rfl, _⟩ := openingLines_anchored hother
      refine not_isInfix_take (List.cons_ne_nil _ tail) fun m hm hbegin => ?_
      exact hearlier m hm _ ⟨_, hother, hbegin, rfl⟩
    have hdrop : text.drop (place + line.length) = t := by
      rw [← List.drop_drop, ← ht, List.drop_left]
    have hafter : afterOpening? (text.take place ++ (line ++ t)) = some t :=
      afterOpening?_append hline hfirst
    rwa [ht, List.take_append_drop, ← hdrop] at hafter

/-- Where a block is opened at all, it is opened for the first time. -/
theorem exists_startsAt {place start : Nat} (h : OpensAt text place start) :
    ∃ start, StartsAt text start := by
  classical
  have hexists : ∃ place, ∃ start, OpensAt text place start := ⟨place, start, h⟩
  obtain ⟨first, hfirst⟩ := Nat.find_spec hexists
  refine ⟨first, Nat.find hexists, hfirst, fun earlier hearlier start hopens => ?_⟩
  exact Nat.find_min hexists hearlier ⟨start, hopens⟩

theorem afterOpening?_eq_none_iff :
    afterOpening? text = none ↔ ∀ place start, ¬OpensAt text place start := by
  rw [Option.eq_none_iff_forall_ne_some]
  constructor
  · intro h place start hopens
    obtain ⟨first, hfirst⟩ := exists_startsAt hopens
    exact h _ (afterOpening?_eq_some_iff.mpr ⟨first, hfirst, rfl⟩)
  · intro h rest hrest
    obtain ⟨_, ⟨place, hopens, _⟩, _⟩ := afterOpening?_eq_some_iff.mp hrest
    exact h place _ hopens

/-! ### The search -/

/-- The pattern of a block. -/
def blockPattern : Pattern :=
  .seq (.text openingMark) (.seq (.optional (.text ['\r'])) (.seq (.text ['\n'])
    (.seq (.capture .anyText) (.text closingMark))))

/-- Of the cuts before a mark, the one with the shortest beginning comes first. -/
theorem findSome?_cuts (mark s : List Char) :
    (Text.cuts s).findSome? (fun cut => (Text.dropStart? mark cut.2).map fun _ => cut.1) =
      before? mark s := by
  induction s with
  | nil =>
    rw [Text.cuts, List.findSome?_singleton, before?, Text.isPrefixOf_eq]
    cases Text.dropStart? mark [] <;> rfl
  | cons c s ih =>
    rw [Text.cuts, List.findSome?_cons, before?, Text.isPrefixOf_eq, List.findSome?_map]
    cases Text.dropStart? mark (c :: s) with
    | some rest => rfl
    | none =>
      rw [← ih, Option.isSome_none, if_neg Bool.false_ne_true, List.map_findSome?]
      simp only [Option.map_none, Function.comp_def, Option.map_map]

/-- Behind a line end, what is captured is what stands before the closing mark. -/
theorem map_captured_body (s : List Char) :
    ((Pattern.seq (.capture .anyText) (.text closingMark)).first s).map Match.captured =
      (before? closingMark s).map some := by
  have hway (s : List Char) : (Pattern.text closingMark).first s =
      (Text.dropStart? closingMark s).map fun rest => ⟨closingMark, none, rest⟩ := by
    rw [Pattern.first, Pattern.ways]
    cases Text.dropStart? closingMark s <;> rfl
  rw [Pattern.first_seq, Pattern.ways, Pattern.ways, List.map_map, List.findSome?_map,
    List.map_findSome?, ← findSome?_cuts, List.map_findSome?]
  simp only [Function.comp_def, hway, Option.map_map]
  rfl

theorem map_captured_first (s : List Char) : (blockPattern.first s).map Match.captured =
    ((dropOpening? s).bind (before? closingMark)).map some := by
  rw [blockPattern, Pattern.map_captured_text_seq, dropOpening?, Option.bind_assoc, Option.map_bind]
  congr 1
  funext rest
  rw [Pattern.first_optional_seq, Option.map_or, Pattern.map_captured_text_seq]
  simp only [Pattern.map_captured_text_seq, map_captured_body, Function.comp_apply]
  unfold dropLineEnd?
  split
  · simp [Text.dropStart?]
  · simp [Text.dropStart?]
  · rename_i hfeed hreturn
    have hnone (rest : List Char) (h : ∀ s, rest ≠ '\n' :: s) :
        Text.dropStart? ['\n'] rest = none :=
      Option.eq_none_iff_forall_ne_some.mpr fun s hs => h s (Text.dropStart?_eq_some_iff.mp hs)
    rw [hnone rest hfeed]
    cases hr : Text.dropStart? ['\r'] rest with
    | none => rfl
    | some behind =>
      have hrest := Text.dropStart?_eq_some_iff.mp hr
      rw [Option.bind_some, hnone behind fun s hs => hreturn s (by rw [hrest, hs]; rfl)]
      rfl

/-- Behind an opening line that is not closed there is no block. -/
theorem block?_eq_none_of_unclosed (hopening : dropOpening? (c :: s) = some rest)
    (hclosing : before? closingMark rest = none) : block? s = none := by
  rw [Option.eq_none_iff_forall_ne_some]
  intro body hbody
  obtain ⟨later, hlater, hbody⟩ := Option.bind_eq_some_iff.mp hbody
  obtain ⟨line, hline, htext⟩ := dropOpening?_eq_some_iff.mp hopening
  obtain ⟨front, line', hline', hs, _⟩ := exists_of_afterOpening? hlater
  have hshort : ∀ line ∈ openingLines, 13 ≤ line.length ∧ line.length ≤ 14 := by decide
  have hlength := congrArg List.length htext
  rw [hs] at hlength
  simp only [List.length_cons, List.length_append] at hlength
  have hle : later.length ≤ rest.length := by
    have h₁ := hshort line hline
    have h₂ := hshort line' hline'
    omega
  have hsuffix : later <:+ rest := by
    refine List.suffix_of_suffix_length_le ⟨c :: (front ++ line'), ?_⟩ ⟨line, htext.symm⟩ hle
    rw [hs]
    simp
  obtain ⟨⟨back, hback⟩, _⟩ := exists_of_before? (by decide) hbody
  have hmark : closingMark <:+: later := ⟨body, back, by rw [hback, List.append_assoc]⟩
  exact (before?_eq_none_iff (by decide)).mp hclosing (hmark.trans hsuffix.isInfix)

theorem map_captured_search (text : List Char) :
    (blockPattern.search text).map Match.captured = (block? text).map some := by
  induction text with
  | nil => rfl
  | cons c s ih =>
    have hblock : block? (c :: s) =
        ((dropOpening? (c :: s)).or (afterOpening? s)).bind (before? closingMark) := rfl
    rw [Pattern.search, Option.map_or, ih, map_captured_first, hblock]
    cases hopening : dropOpening? (c :: s) with
    | none => rfl
    | some rest =>
      rw [Option.bind_some, Option.some_or, Option.bind_some]
      cases hclosing : before? closingMark rest with
      | none =>
        rw [block?_eq_none_of_unclosed hopening hclosing]
        rfl
      | some body => rfl

/-! ### The block by its place -/

theorem closesAt_iff {start n : Nat} :
    ClosesAt text (start + n) ↔ closingMark <+: (text.drop start).drop n := by
  rw [ClosesAt, List.drop_drop]

theorem closing_isInfix_drop_iff {start : Nat} :
    closingMark <:+: text.drop start ↔ ∃ place ≥ start, ClosesAt text place := by
  constructor
  · intro h
    obtain ⟨n, _, hn⟩ := exists_isPrefix_drop h
    exact ⟨start + n, Nat.le_add_right start n, closesAt_iff.mpr hn⟩
  · rintro ⟨place, hplace, hcloses⟩
    obtain ⟨n, rfl⟩ := Nat.exists_eq_add_of_le hplace
    exact (closesAt_iff.mp hcloses).isInfix.trans (List.drop_suffix n _).isInfix

theorem block?_eq_none_iff : block? text = none ↔ (∀ place start, ¬OpensAt text place start) ∨
    ∃ start, StartsAt text start ∧ ∀ place ≥ start, ¬ClosesAt text place := by
  have hclosed (start : Nat) : before? closingMark (text.drop start) = none ↔
      ∀ place ≥ start, ¬ClosesAt text place := by
    rw [before?_eq_none_iff (by decide), closing_isInfix_drop_iff]
    simp only [not_exists, not_and]
  rw [block?, ← afterOpening?_eq_none_iff]
  cases hafter : afterOpening? text with
  | none => simp
  | some rest =>
    obtain ⟨start, hstart, rfl⟩ := afterOpening?_eq_some_iff.mp hafter
    rw [Option.bind_some]
    constructor
    · intro h
      exact .inr ⟨start, hstart, (hclosed start).mp h⟩
    · rintro (h | ⟨start', hstart', h⟩)
      · cases h
      · have hsame := afterOpening?_eq_some_iff.mpr ⟨start', hstart', rfl⟩
        rw [hafter] at hsame
        rw [Option.some.inj hsame]
        exact (hclosed start').mpr h

theorem isLeast_closes_iff {start n : Nat} :
    IsLeast {place | start ≤ place ∧ ClosesAt text place} (start + n) ↔
      IsLeast {n | closingMark <+: (text.drop start).drop n} n := by
  constructor
  · rintro ⟨⟨_, hcloses⟩, hleast⟩
    refine ⟨closesAt_iff.mp hcloses, fun m hm => ?_⟩
    have hle := hleast ⟨Nat.le_add_right start m, closesAt_iff.mpr hm⟩
    omega
  · rintro ⟨hcloses, hleast⟩
    refine ⟨⟨Nat.le_add_right start n, closesAt_iff.mpr hcloses⟩, ?_⟩
    rintro place ⟨hplace, hm⟩
    obtain ⟨m, rfl⟩ := Nat.exists_eq_add_of_le hplace
    have hle := hleast (closesAt_iff.mp hm)
    omega

theorem block?_eq_some_iff {body : List Char} : block? text = some body ↔
    ∃ start stop, StartsAt text start ∧
      IsLeast {place | start ≤ place ∧ ClosesAt text place} stop ∧
      body = (text.drop start).take (stop - start) := by
  have hmark : '#' ∉ " ///".toList := by decide
  have hbefore (start : Nat) : before? closingMark (text.drop start) = some body ↔
      ∃ n, IsLeast {n | closingMark <+: (text.drop start).drop n} n ∧
        body = (text.drop start).take n :=
    before?_eq_some_iff hmark
  rw [block?, Option.bind_eq_some_iff]
  constructor
  · rintro ⟨rest, hafter, hbody⟩
    obtain ⟨start, hstart, rfl⟩ := afterOpening?_eq_some_iff.mp hafter
    obtain ⟨n, hn, hbody⟩ := (hbefore start).mp hbody
    refine ⟨start, start + n, hstart, isLeast_closes_iff.mpr hn, ?_⟩
    rwa [Nat.add_sub_cancel_left]
  · rintro ⟨start, stop, hstart, hstop, hbody⟩
    obtain ⟨n, rfl⟩ := Nat.exists_eq_add_of_le hstop.1.1
    rw [Nat.add_sub_cancel_left] at hbody
    exact ⟨text.drop start, afterOpening?_eq_some_iff.mpr ⟨start, hstart, rfl⟩,
      (hbefore start).mpr ⟨n, isLeast_closes_iff.mp hstop, hbody⟩⟩

/-- **The place of a block.** A text has no block exactly if no line opens one or no mark closes it
behind the first line that opens one; otherwise the block is the text from the end of that line to
the first mark behind it. This is what a search for the pattern of a block captures. -/
theorem blockText?_places (text : String) :
    (blockText? text = none ↔
        (∀ place start, ¬OpensAt text.toList place start) ∨
          ∃ start, StartsAt text.toList start ∧ ∀ place ≥ start, ¬ClosesAt text.toList place) ∧
      (∀ body, blockText? text = some body ↔
        ∃ start stop, StartsAt text.toList start ∧
          IsLeast {place | start ≤ place ∧ ClosesAt text.toList place} stop ∧
          body.toList = (text.toList.drop start).take (stop - start)) ∧
      (blockPattern.search text.toList).map Match.captured =
        (blockText? text).map fun body => some body.toList := by
  refine ⟨?_, fun body => ?_, ?_⟩
  · rw [blockText?, Option.map_eq_none_iff, block?_eq_none_iff]
  · rw [← block?_eq_some_iff, blockText?, Option.map_eq_some_iff]
    constructor
    · rintro ⟨_, hblock, rfl⟩
      rwa [String.toList_ofList]
    · intro hblock
      exact ⟨body.toList, hblock, String.ofList_toList⟩
  · rw [map_captured_search, blockText?, Option.map_map]
    simp only [Function.comp_def, String.toList_ofList]

-- A second opening line begins with the closing mark.
example : blockText? "# /// script v2\n# /// script\n#a\n# /// script\n#b\n# ///" =
    some "#a\n" := by decide +kernel

end Scriptorium.Manifest
