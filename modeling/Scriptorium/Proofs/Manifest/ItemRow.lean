/-
Rows of quoted strings, as they stand on one line of a list, and the items read from them.

The reader cuts blanks, brackets and commas at both ends of a row and puts what is left between
brackets of its own. It never cuts into a string, for a string begins and ends with characters that
are not cut; and whatever is left behind the last string, a `Tail`, may stand before a closing
bracket.
-/

import Scriptorium.Manifest.Reader
import Scriptorium.Proofs.Literal.Strings

namespace Scriptorium.Manifest

open Literal (Spells Trivia)
open Text (isBlank lastSolid)

variable {s t e g h rest text : List Char} {items : List String}

/-! ### Rows -/

/-- Nothing but blanks. -/
def Blanks (s : List Char) : Prop :=
  ∀ c ∈ s, isBlank c = true

instance : DecidablePred Blanks := fun s =>
  decidable_of_iff (s.all isBlank = true) List.all_eq_true

theorem Blanks.append (hg : Blanks g) (hh : Blanks h) : Blanks (g ++ h) := by
  intro c hc
  exact (List.mem_append.mp hc).elim (hg c) (hh c)

/-- Quoted strings with commas between them and any blanks around the commas. -/
inductive Chain : List String → List Char → Prop where
  | single {a : String} {s : List Char} : Literal.Pieces s a.toList → Chain [a] s
  | cons {a : String} {items : List String} {s g h rest : List Char} :
      Literal.Pieces s a.toList → Blanks g → Blanks h → Chain items rest →
      Chain (a :: items) (s ++ (g ++ ',' :: (h ++ rest)))

/-- What stands behind the last item of a row: blanks, with or without a comma. -/
inductive RowEnd : List Char → Prop where
  | bare {g : List Char} : Blanks g → RowEnd g
  | comma {g h : List Char} : Blanks g → Blanks h → RowEnd (g ++ ',' :: h)

/-- The items on one line of a list, none included. -/
inductive ItemRow : List String → List Char → Prop where
  | blank {g : List Char} : Blanks g → ItemRow [] g
  | items {items : List String} {g s e : List Char} :
      Blanks g → Chain items s → RowEnd e → ItemRow items (g ++ (s ++ e))

/-! ### Ends of strings -/

/-- A character that is not cut at the ends of a row. -/
def isFirm (c : Char) : Bool :=
  !isBlank c && !isListMark c

theorem isFirm_iff {c : Char} : isFirm c = true ↔ isBlank c = false ∧ isListMark c = false := by
  simp [isFirm]

theorem isListMark_of_isBlank {c : Char} (h : isBlank c = true) : isListMark c = false := by
  rw [Bool.eq_false_iff]
  intro hmark
  simp only [isListMark, Bool.or_eq_true, beq_iff_eq] at hmark
  rcases hmark with (rfl | rfl) | rfl <;> exact absurd h (by decide)

theorem isFirm_of_isQuote {c : Char} (h : Literal.isQuote c = true) : isFirm c = true := by
  rcases Literal.isQuote_iff.mp h with rfl | rfl <;> decide

theorem Chain.ne_nil (h : Chain items s) : s ≠ [] := by
  cases h with
  | single hs =>
    obtain ⟨c, u, rfl, _⟩ := hs.head
    exact List.cons_ne_nil c u
  | cons hs _ _ _ =>
    obtain ⟨c, u, rfl, _⟩ := hs.head
    exact List.cons_ne_nil c _

theorem firm_head_pieces (h : Literal.Pieces s text) :
    ∃ c u, s = c :: u ∧ isFirm c = true ∧ c ≠ '#' := by
  obtain ⟨c, u, rfl, hc⟩ := h.head
  refine ⟨c, u, rfl, ?_⟩
  simp only [List.mem_cons, List.not_mem_nil, or_false] at hc
  rcases hc with rfl | rfl | rfl | rfl | rfl | rfl <;> decide

/-- A row of strings begins with a character that is neither cut nor a comment mark. -/
theorem Chain.head (h : Chain items s) : ∀ c ∈ s.head?, isFirm c = true ∧ c ≠ '#' := by
  intro c hc
  cases h with
  | single hs =>
    obtain ⟨d, u, rfl, hd⟩ := firm_head_pieces hs
    cases hc
    exact hd
  | cons hs _ _ _ =>
    obtain ⟨d, u, rfl, hd⟩ := firm_head_pieces hs
    cases hc
    exact hd

theorem firm_last_pieces (h : Literal.Pieces s text) : ∀ c ∈ s.getLast?, isFirm c = true := by
  induction h with
  | last hpiece =>
    cases hpiece with
    | @mk mark body text form hmark hquote _ =>
      have hlast : form.delimiter.getLast? = some form.quote := by
        unfold Literal.PieceForm.delimiter
        split <;> rfl
      intro c hc
      simp only [List.getLast?_append, hlast, Option.some_or, Option.mem_some_iff] at hc
      exact isFirm_of_isQuote (hc ▸ hquote)
  | more _ _ _ hmore ih =>
    obtain ⟨d, u, rfl, _⟩ := hmore.head
    intro c hc
    refine ih c ?_
    rwa [List.getLast?_append_of_ne_nil _ (by simp),
      List.getLast?_append_of_ne_nil _ (by simp)] at hc

theorem Chain.last (h : Chain items s) : ∀ c ∈ s.getLast?, isFirm c = true := by
  induction h with
  | single hs => exact firm_last_pieces hs
  | cons _ _ _ hrest ih =>
    intro c hc
    refine ih c ?_
    have hne := hrest.ne_nil
    rwa [List.getLast?_append_of_ne_nil _ (by simp), List.getLast?_append_of_ne_nil _ (by simp),
      List.getLast?_cons_of_ne_nil (by simp [hne]), List.getLast?_append_of_ne_nil _ hne] at hc

/-! ### Before a closing bracket -/

/-- What may stand between the last item and the closing bracket. -/
def Closes (e : List Char) : Prop :=
  ∃ u tail, e = u ++ tail ∧ Trivia u ∧ Spells (.items []) tail

theorem Blanks.trimLeft_eq (h : Blanks g) : Text.trimLeft g = [] :=
  List.dropWhile_eq_nil_iff.mpr h

theorem Blanks.trimRight_eq (h : Blanks g) : Text.trimRight g = [] :=
  List.rdropWhile_eq_nil_iff.mpr h

theorem Blanks.trivia (h : Blanks g) : Trivia g := by
  induction g with
  | nil => exact .nil
  | cons c g ih => exact .blank (h c List.mem_cons_self) (ih fun d hd => h d (.tail c hd))

theorem RowEnd.closes (h : RowEnd e) : Closes e := by
  cases h with
  | bare hg => exact ⟨e, [], (List.append_nil e).symm, hg.trivia, .noItems⟩
  | comma hg hh => exact ⟨_, _, rfl, hg.trivia, .commaBehindItems hh.trivia⟩

theorem spells_trivia_append {v : Literal} (ht : Trivia t) (h : Spells (.padded v) s) :
    Spells (.padded v) (t ++ s) := by
  cases h with
  | padded hbefore hv hbehind =>
    rw [← List.append_assoc]
    exact .padded (ht.append hbefore) hv hbehind

/-- A row spells its first item, and the others behind it. -/
theorem Chain.spells (h : Chain items s) (he : Closes e) : ∃ a more first others,
    items = a :: more ∧ s ++ e = first ++ others ∧ Spells (.padded (.str a)) first ∧
      Spells (.items (more.map .str)) others := by
  have hstr {a : String} {s : List Char} (hs : Literal.Pieces s a.toList) :
      Spells (.value (.str a)) s := by
    have hspells := Spells.str hs
    rwa [String.ofList_toList] at hspells
  induction h with
  | @single a s hs =>
    obtain ⟨u, tail, rfl, hu, htail⟩ := he
    refine ⟨a, [], [] ++ (s ++ u), tail, rfl, ?_, .padded .nil (hstr hs) hu, htail⟩
    rw [List.nil_append, List.append_assoc]
  | @cons a items s g h rest hs hg hh _ ih =>
    obtain ⟨b, more, first, others, rfl, hsplit, hfirst, hothers⟩ := ih
    refine ⟨a, b :: more, [] ++ (s ++ g), ',' :: (h ++ first ++ others), rfl, ?_,
      .padded .nil (hstr hs) hg.trivia, ?_⟩
    · simp [hsplit]
    · exact .item (spells_trivia_append hh.trivia hfirst) hothers

/-- A list of strings in brackets is spelled by its row. -/
theorem Chain.spells_list (hs : Chain items s) (hg : Blanks g) (he : Closes e) :
    Spells (.value (Literal.ofStrings items)) ('[' :: (g ++ (s ++ e) ++ [']'])) := by
  obtain ⟨a, more, first, others, rfl, hsplit, hfirst, hothers⟩ := hs.spells he
  rw [hsplit, ← List.append_assoc, List.append_assoc]
  exact .display (d := .list) (spells_trivia_append hg.trivia hfirst) hothers (by simp)

/-- A bracketed list of strings is read, also if trivia stands behind it. -/
theorem parseStrings_append (h : Spells (.value (Literal.ofStrings items)) s)
    (hsevers : Literal.Severs rest) (hrest : Literal.skipTrivia rest = []) :
    Literal.parseStrings (String.ofList (s ++ rest)) = .ok items := by
  have hrun := Literal.reads_of_spells h [] rest hsevers (by rw [hrest]; rfl)
  rw [Literal.run_got_nil] at hrun
  have hparse : Literal.parse (String.ofList (s ++ rest)) = .ok (Literal.ofStrings items) :=
    Literal.parse_of_run (by rwa [String.toList_ofList]) hrest
  rw [Literal.parseStrings, hparse]
  exact Literal.mapM_itemText_str items

theorem parseStrings_of_spells (h : Spells (.value (Literal.ofStrings items)) s) :
    Literal.parseStrings (String.ofList s) = .ok items := by
  rw [← List.append_nil s]
  exact parseStrings_append h Literal.severs_nil rfl

/-! ### Behind the items of a row -/

/-- What may be left behind the items of a row when its end is cut: blanks, at most one comma if
there may be one, and a remark. -/
inductive Tail : Bool → List Char → Prop where
  | nil {comma : Bool} : Tail comma []
  | blank {comma : Bool} {c : Char} {t : List Char} :
      isBlank c = true → Tail comma t → Tail comma (c :: t)
  | comma {t : List Char} : Tail false t → Tail true (',' :: t)
  | remark {comma : Bool} {text : List Char} : '\n' ∉ text → Tail comma ('#' :: text)

variable {comma : Bool}

theorem Tail.of_isPrefix (h : Tail comma t) (hs : s <+: t) : Tail comma s := by
  induction h generalizing s with
  | nil => rw [List.prefix_nil.mp hs]; exact .nil
  | blank hc _ ih =>
    cases s with
    | nil => exact .nil
    | cons a s =>
      obtain ⟨rfl, hrest⟩ := List.cons_prefix_cons.mp hs
      exact .blank hc (ih hrest)
  | comma _ ih =>
    cases s with
    | nil => exact .nil
    | cons a s =>
      obtain ⟨rfl, hrest⟩ := List.cons_prefix_cons.mp hs
      exact .comma (ih hrest)
  | remark htext =>
    cases s with
    | nil => exact .nil
    | cons a s =>
      obtain ⟨rfl, hrest⟩ := List.cons_prefix_cons.mp hs
      exact .remark fun hmem => htext (hrest.subset hmem)

theorem Blanks.tail_append (hg : Blanks g) (ht : Tail comma t) : Tail comma (g ++ t) := by
  induction g with
  | nil => exact ht
  | cons c g ih => exact .blank (hg c List.mem_cons_self) (ih fun d hd => hg d (.tail c hd))

theorem Tail.of_false (h : Tail false t) : Tail comma t := by
  generalize hfalse : false = flag at h
  induction h with
  | nil => exact .nil
  | blank hc _ ih => exact .blank hc (ih hfalse)
  | comma _ _ => cases hfalse
  | remark htext => exact .remark htext

theorem RowEnd.tail_append (he : RowEnd e) (ht : Tail false t) : Tail true (e ++ t) := by
  cases he with
  | bare hg => exact hg.tail_append ht.of_false
  | comma hg hh =>
    rw [List.append_assoc]
    exact hg.tail_append (.comma (hh.tail_append ht))

/-- With a line feed behind it, a tail may stand before the closing bracket. -/
theorem Tail.closes (h : Tail comma t) :
    (comma = false → Trivia (t ++ ['\n'])) ∧ Closes (t ++ ['\n']) := by
  -- Behind a comma only trivia may follow, so both facts go through the induction together.
  have hfeed : Trivia ['\n'] := .blank (by decide) .nil
  have hclosed {s : List Char} (hs : Trivia s) : Closes s :=
    ⟨s, [], (List.append_nil s).symm, hs, .noItems⟩
  induction h with
  | nil => exact ⟨fun _ => hfeed, hclosed hfeed⟩
  | blank hc _ ih =>
    obtain ⟨u, tail, hsplit, hu, htail⟩ := ih.2
    refine ⟨fun hcomma => .blank hc (ih.1 hcomma), _ :: u, tail, ?_, .blank hc hu, htail⟩
    rw [List.cons_append, hsplit, List.cons_append]
  | comma _ ih =>
    exact ⟨nofun, [], _, rfl, .nil, .commaBehindItems (ih.1 rfl)⟩
  | remark htext =>
    have hremark := Trivia.remark htext .nil
    exact ⟨fun _ => hremark, hclosed hremark⟩

/-! ### Cutting a row -/

/-- What is left of the end of a row. -/
def cutEnd (e : List Char) : List Char :=
  Text.trimRight (Text.dropRightWhile isListMark (Text.trimRight e))

theorem isPrefix_cutEnd (e : List Char) : cutEnd e <+: e :=
  ((Text.isPrefix_dropRightWhile _ _).trans (Text.isPrefix_dropRightWhile _ _)).trans
    (Text.isPrefix_dropRightWhile _ _)

/-- A closing bracket is cut. -/
theorem isPrefix_cutEnd_bracket (hg : Blanks g) (e : List Char) : cutEnd (e ++ ']' :: g) <+: e := by
  have hcut : Text.dropRightWhile isListMark (e ++ [']']) = Text.dropRightWhile isListMark e :=
    List.rdropWhile_concat_pos _ _ _ rfl
  rw [cutEnd, Text.trimRight_append_cons (by decide), hg.trimRight_eq, hcut]
  exact (Text.isPrefix_dropRightWhile _ _).trans (Text.isPrefix_dropRightWhile _ _)

/-- A text that begins and ends with firm characters is not cut into. -/
theorem cut_append (hne : s ≠ []) (hhead : ∀ c ∈ s.head?, isFirm c = true)
    (hlast : ∀ c ∈ s.getLast?, isFirm c = true) (e : List Char) :
    Text.trim (Text.trimWhile isListMark (Text.trim (s ++ e))) = s ++ cutEnd e := by
  have htrim (t : List Char) : Text.trim (s ++ t) = s ++ Text.trimRight t :=
    Text.trimWhile_append_right [] (by simp) hne
      (fun c hc => (isFirm_iff.mp (hhead c hc)).1) (fun c hc => (isFirm_iff.mp (hlast c hc)).1) t
  have hmarks (t : List Char) :
      Text.trimWhile isListMark (s ++ t) = s ++ Text.dropRightWhile isListMark t :=
    Text.trimWhile_append_right [] (by simp) hne
      (fun c hc => (isFirm_iff.mp (hhead c hc)).2) (fun c hc => (isFirm_iff.mp (hlast c hc)).2) t
  rw [htrim, hmarks, htrim, cutEnd]

/-! ### The items of a row -/

theorem lineItems_trimRight (content : List Char) :
    lineItems (Text.trimRight content) = lineItems content := by
  rw [lineItems, Text.trim_trimRight, ← lineItems]

theorem lineItems_blanks_append (hg : Blanks g) (content : List Char) :
    lineItems (g ++ content) = lineItems content := by
  have htrim : Text.trim (g ++ content) = Text.trim content := by
    rw [Text.trim, Text.trimWhile, List.dropWhile_append_of_pos hg]
    rfl
  rw [lineItems, htrim, ← lineItems]

/-- The items read from strings are these strings, but for empty ones. -/
theorem Chain.lineItems_eq (hs : Chain items s) (he : Tail true (cutEnd e)) :
    lineItems (s ++ e) = items.filter (· ≠ "") := by
  have hbody : Text.trim (Text.trimWhile isListMark (Text.trim (s ++ e))) = s ++ cutEnd e :=
    cut_append hs.ne_nil (fun c hc => (hs.head c hc).1) hs.last e
  have hempty : (s ++ cutEnd e).isEmpty = false := by simp [hs.ne_nil]
  have hspells := hs.spells_list (g := []) (by decide) he.closes.2
  have hparse := parseStrings_of_spells hspells
  have hsource : '[' :: ([] ++ (s ++ (cutEnd e ++ ['\n'])) ++ [']']) =
      '[' :: (s ++ cutEnd e ++ ['\n', ']']) := by simp
  rw [hsource] at hparse
  simp only [lineItems, hbody, hempty, hparse, Bool.false_eq_true, if_false]

/-- There are no items in a remark. -/
theorem lineItems_of_remark {content : List Char} (htext : '\n' ∉ text)
    (hbody : Text.trim (Text.trimWhile isListMark (Text.trim content)) = '#' :: text) :
    lineItems content = [] := by
  have hspells : Spells (.value (Literal.ofStrings []))
      ('[' :: (('#' :: (text ++ ['\n'])) ++ [']'])) :=
    .empty (d := .list) (by simp) (.remark htext .nil)
  have hparse := parseStrings_of_spells hspells
  have hsource : '[' :: (('#' :: (text ++ ['\n'])) ++ [']']) =
      '[' :: ('#' :: text ++ ['\n', ']']) := by simp
  rw [hsource] at hparse
  simp only [lineItems, hbody, hparse, List.isEmpty_cons, Bool.false_eq_true, if_false,
    List.filter_nil]

theorem feed_not_mem_cutEnd (htext : '\n' ∉ text) : '\n' ∉ cutEnd text := fun hmem =>
  htext ((isPrefix_cutEnd text).subset hmem)

theorem lineItems_remark (htext : '\n' ∉ text) : lineItems ('#' :: text) = [] := by
  refine lineItems_of_remark (feed_not_mem_cutEnd htext) ?_
  exact cut_append (s := ['#']) (by simp) (by simp; decide) (by simp; decide) text

theorem lineItems_bracket (hg : Blanks g) : lineItems (']' :: g) = [] := by
  rw [lineItems, Text.trim_cons_of_not_blank (by decide), hg.trimRight_eq]
  rfl

/-- There are no items in a remark behind a closing bracket that stands alone. -/
theorem lineItems_bracket_remark (hg : Blanks g) (htext : '\n' ∉ text) :
    lineItems (']' :: (g ++ '#' :: text)) = [] := by
  have hhead : ∀ c ∈ (g ++ ['#']).head?, isListMark c = false := by
    intro c hc
    cases g with
    | nil =>
      cases hc
      rfl
    | cons a g =>
      obtain rfl : a = c := Option.some.inj hc
      exact isListMark_of_isBlank (hg a List.mem_cons_self)
  have hmarks (t : List Char) : Text.trimWhile isListMark (']' :: (g ++ '#' :: t)) =
      g ++ '#' :: Text.dropRightWhile isListMark t := by
    have hcut := Text.trimWhile_append_right [']'] (List.all_eq_true.mp rfl)
      (by simp) hhead (by simp; decide) t
    simpa using hcut
  refine lineItems_of_remark (feed_not_mem_cutEnd htext) ?_
  rw [Text.trim_cons_of_not_blank (by decide), Text.trimRight_append_cons (by decide), hmarks,
    Text.trim_append_cons (by decide), hg.trimLeft_eq]
  rfl

end Scriptorium.Manifest
