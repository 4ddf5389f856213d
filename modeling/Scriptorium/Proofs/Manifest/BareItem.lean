/-
Lists of bare words, one on each line.

A word loses the brackets at its end. What is left is put between brackets and read as a list, which
gives the word back unless it is a number with another source form (`lineItems_bareWord`). A line
that ends with a closing bracket completes the list, though, also if the bracket belongs to a word;
so the items of a list are the words of its lines, in order, up to the first such line
(`readLines_wordLines`).
-/

import Scriptorium.Proofs.Literal.BareWord
import Scriptorium.Proofs.Literal.FloatNumeral
import Scriptorium.Proofs.Literal.SourceForm
import Scriptorium.Proofs.Manifest.Layout

namespace Scriptorium.Manifest

open Literal (IsBareWord NumberText intBound isBareChar renderFloat)
open Text (isBlank isWordChar lastSolid)

variable {key : String} {w g e head close before opening : List Char} {p : Pending}
  {front rest : List (List Char)}

/-! ### Words -/

/-- A word without the brackets at its end. -/
def unbracketed (w : List Char) : List Char :=
  Text.dropRightWhile isListMark w

/-- Whether a text is its own source form if it is a literal. Of the words that begin with a digit,
these are the ones that `isOwnForm_iff` names. -/
def isOwnForm (w : List Char) : Bool :=
  match Literal.parse (String.ofList w) with
  | .ok v => v.text == String.ofList w
  | .error _ => true

theorem unbracketed_eq_self_iff :
    unbracketed w = w ↔ ∀ c ∈ w.getLast?, isListMark c = false := by
  rw [unbracketed, Text.dropRightWhile_eq, List.rdropWhile_eq_self_iff]
  cases w using List.reverseRecOn with
  | nil => simp
  | append_singleton w c => simp

theorem isListMark_of_isWordChar {c : Char} (h : isWordChar c = true) : isListMark c = false := by
  rw [Bool.eq_false_iff]
  intro hmark
  simp only [isListMark, Bool.or_eq_true, beq_iff_eq] at hmark
  rcases hmark with (rfl | rfl) | rfl <;> exact absurd h (by decide)

theorem unbracketed_cons {c : Char} (h : isWordChar c = true) (w : List Char) :
    unbracketed (c :: w) = c :: unbracketed w :=
  Text.dropRightWhile_append (s := [c]) (by simpa using isListMark_of_isWordChar h) w

/-- A bare word keeps its first character, and is a bare word also without brackets at its end. -/
theorem isBareWord_unbracketed (h : IsBareWord w) :
    IsBareWord (unbracketed w) ∧ (unbracketed w).head? = w.head? := by
  have hbare : ∀ c ∈ unbracketed w, isBareChar c = true := fun c hc =>
    h.isBareChar ((Text.isPrefix_dropRightWhile _ _).subset hc)
  obtain ⟨c, u, rfl, hc⟩ := h.exists_cons
  have hhead : (unbracketed (c :: u)).head? = some c := by rw [unbracketed_cons hc, List.head?_cons]
  exact ⟨⟨by rw [hhead]; exact hc, List.all_eq_true.mpr hbare⟩, hhead⟩

theorem isBlank_eq_false_of_isBareChar {c : Char} (h : isBareChar c = true) :
    isBlank c = false := by
  have hsolid := (Literal.isBareChar_iff.mp h).1
  simp only [Literal.isSolid, Bool.and_eq_true, Bool.not_eq_true'] at hsolid
  exact hsolid.1.1

/-- No comment mark is taken off a bare word. -/
theorem isMark_head_bareWord (h : IsBareWord w) (e : List Char) :
    ∀ c ∈ (w ++ e).head?, isMark c = false := by
  intro c hc
  rw [List.head?_append_of_ne_nil _ h.ne_nil] at hc
  have hbare := h.isBareChar (List.mem_of_mem_head? hc)
  refine isMark_eq_false (isBlank_eq_false_of_isBareChar hbare) ?_
  rintro rfl
  exact absurd hbare (by decide)

theorem trim_bareWord (h : IsBareWord w) : Text.trim w = w :=
  Text.trimWhile_of_ends
    (fun _ hc => isBlank_eq_false_of_isBareChar (h.isBareChar (List.mem_of_mem_head? hc)))
    (fun _ hc => isBlank_eq_false_of_isBareChar (h.isBareChar (List.mem_of_mem_getLast? hc)))

theorem dropQuotes_bareWord (h : IsBareWord w) : dropQuotes w = w := by
  have hnot {mark : Char} (hmark : Literal.isQuote mark = true) : mark ∉ w := by
    intro hmem
    rw [h.isQuote hmem] at hmark
    cases hmark
  have hbetween {mark : Char} (hmark : Literal.isQuote mark = true) : Text.IsBetween mark w w :=
    .self (fun hc => hnot hmark (List.mem_of_mem_head? hc))
      fun hc => hnot hmark (List.mem_of_mem_getLast? hc)
  exact dropQuotes_eq_iff.mpr ⟨w, hbetween rfl, hbetween rfl⟩

/-! ### Numbers -/

theorem isOwnForm_of_parse {v : Literal} (h : Literal.parse (String.ofList w) = .ok v) :
    isOwnForm w = true ↔ v.render = w := by
  simp only [isOwnForm, h, Literal.text, beq_iff_eq, String.ofList_inj]

/-- **Numbers in their own form.** A word that begins with a digit is its own source form unless it
has the form of a number and the number is written otherwise: integers are written in decimal digits
without zeros before them, other numbers as the shortest text of a finite one. -/
theorem isOwnForm_iff (hw : IsBareWord w) (hdigit : w.head?.any Char.isDigit = true) :
    isOwnForm w = true ↔ ¬NumberText w ∨ (∃ n < intBound, w = Nat.toDigits 10 n) ∨
      ∃ x : Binary64, x.isFinite = true ∧ w = renderFloat x := by
  have hnumber := Literal.exists_parse_bareNumber_iff hw hdigit
  constructor
  · intro hown
    by_cases htext : NumberText w
    · refine .inr ?_
      obtain ⟨v, hparse⟩ := hnumber.mpr htext
      have hrender := (isOwnForm_of_parse hparse).mp hown
      have hread := (Literal.parse_bareNumber_iff hw hdigit).mp hparse
      have hkind := (Literal.isNumber_of_readNumeral hread Literal.severs_nil).2
      generalize Literal.float? _ = decimal? at hkind
      cases hkind with
      | int hn => exact .inl ⟨_, hn, by rw [← hrender, Literal.render, Literal.renderInt_ofNat hn]⟩
      | float d =>
        rw [Literal.render] at hrender
        rw [← hrender] at hdigit
        exact .inr ⟨_, Literal.isFinite_of_head_renderFloat hdigit, hrender.symm⟩
    · exact .inl htext
  · rintro (htext | ⟨n, hn, rfl⟩ | ⟨x, hx, rfl⟩)
    · unfold isOwnForm
      split
      · exact absurd (hnumber.mp ⟨_, ‹_›⟩) htext
      · rfl
    · have hread := Literal.readNumeral_append (.decimal (Literal.digits_toDigits n))
        Literal.severs_nil
      rw [List.append_nil, Literal.intOf, if_pos hn] at hread
      have hparse := (Literal.parse_bareNumber_iff hw hdigit).mpr hread
      exact (isOwnForm_of_parse hparse).mpr (by rw [Literal.render, Literal.renderInt_ofNat hn])
    · have hread := (Literal.reads_renderFloat hx).bare
      rw [← String.toList_ofList (l := renderFloat x)] at hread
      exact (isOwnForm_of_parse (Literal.parse_of_reads hread)).mpr (by rw [Literal.render])

example : ["0.1.0", "42", "1e+16", "1.10", "1_000", "0x1F", "1e999"].map
    (fun s => isOwnForm s.toList) = [true, true, true, false, false, false, false] := by
  decide +kernel

/-! ### The item of a word -/

/-- What stands directly behind a word: a comma or nothing. -/
def commaIf (comma : Bool) : List Char :=
  if comma then [','] else []

/-- Nothing is left of brackets and commas with blanks behind them. -/
theorem cutEnd_marks (he : ∀ c ∈ e, isListMark c = true) (hg : Blanks g) :
    cutEnd (e ++ g) = [] := by
  have hlast : ∀ c ∈ e.getLast?, isBlank c = false := by
    intro c hc
    rw [Bool.eq_false_iff]
    intro hblank
    have hmark := he c (List.mem_of_mem_getLast? hc)
    rw [isListMark_of_isBlank hblank] at hmark
    cases hmark
  have htrim : Text.trimRight (e ++ g) = e ++ Text.trimRight g := Text.dropRightWhile_append hlast g
  have hdrop : Text.dropRightWhile isListMark e = [] := List.rdropWhile_eq_nil_iff.mpr he
  rw [cutEnd, htrim, hg.trimRight_eq, List.append_nil, hdrop]
  rfl

/-- With or without a comma behind it, a word is cut to what it is without brackets at its end. -/
theorem cut_bareWord (h : IsBareWord w) (comma : Bool) (hg : Blanks g) :
    Text.trim (Text.trimWhile isListMark (Text.trim (w ++ (commaIf comma ++ g)))) =
      unbracketed w := by
  have hbare := (isBareWord_unbracketed h).1
  obtain ⟨c, u, hcons, hc⟩ := hbare.exists_cons
  -- What is cut off the word is cut with the comma and the blanks behind it.
  have hsplit : unbracketed w ++ w.rtakeWhile isListMark = w := List.rdropWhile_append_rtakeWhile
  have hmarks : ∀ c ∈ w.rtakeWhile isListMark ++ commaIf comma, isListMark c = true := by
    rw [List.forall_mem_append]
    refine ⟨fun _ hc => List.mem_rtakeWhile_imp hc, ?_⟩
    cases comma <;> simp [commaIf, isListMark]
  have hfirm {c : Char} (hc : c ∈ unbracketed w) (hmark : isListMark c = false) :
      isFirm c = true :=
    isFirm_iff.mpr ⟨isBlank_eq_false_of_isBareChar (hbare.isBareChar hc), hmark⟩
  have hhead : ∀ d ∈ (unbracketed w).head?, isFirm d = true := by
    intro d hd
    refine hfirm (List.mem_of_mem_head? hd) (isListMark_of_isWordChar ?_)
    rw [hcons] at hd
    cases hd
    exact hc
  have hlast : ∀ d ∈ (unbracketed w).getLast?, isFirm d = true := fun d hd =>
    hfirm (List.mem_of_mem_getLast? hd)
      (unbracketed_eq_self_iff.mp (List.rdropWhile_idempotent _ _) d hd)
  have hcut := cut_append (by simp [hcons]) hhead hlast
    (w.rtakeWhile isListMark ++ commaIf comma ++ g)
  rwa [cutEnd_marks hmarks hg, List.append_nil, ← List.append_assoc, ← List.append_assoc, hsplit,
    List.append_assoc] at hcut

/-- **The item of a bare word** is the word without the brackets at its end, unless that is a number
with another source form. -/
theorem lineItems_bareWord (h : IsBareWord w)
    (hform : w.head?.any Char.isDigit = true → isOwnForm (unbracketed w) = true) (comma : Bool)
    (hg : Blanks g) :
    lineItems (w ++ (commaIf comma ++ g)) = [String.ofList (unbracketed w)] := by
  obtain ⟨hbare, hhead⟩ := isBareWord_unbracketed h
  obtain ⟨c, u, hcons, -⟩ := hbare.exists_cons
  have hempty : (unbracketed w).isEmpty = false := by rw [hcons, List.isEmpty_cons]
  have hne : String.ofList (unbracketed w) ≠ "" := by simp [hcons]
  rw [lineItems]
  simp only [cut_bareWord h comma hg, hempty, Bool.false_eq_true, if_false]
  split
  · rename_i items hitems
    obtain ⟨v, hparse, rfl⟩ := Literal.parse_of_parseStrings_bareWord hbare hitems
    have htext : v.text = String.ofList (unbracketed w) := by
      cases hdigit : w.head?.any Char.isDigit with
      | false => exact Literal.text_of_parse_bareWord hbare (hhead ▸ hdigit) hparse
      | true =>
        have hown := hform hdigit
        rw [isOwnForm, hparse] at hown
        exact beq_iff_eq.mp hown
    rw [htext]
    simp [hne]
  · simp only [dropQuotes_bareWord hbare, trim_bareWord hbare, hempty, Bool.false_eq_true, if_false]

/-! ### Lines -/

/-- A comment line with one bare word between blanks, and a comma or nothing directly behind it. If
the word begins with a digit, it is no number with another source form. -/
structure WordLine where
  margin : List Char
  gap : List Char
  word : List Char
  comma : Bool
  ending : List Char
  isMargin : Margin margin
  blank_gap : Blanks gap
  isBareWord : IsBareWord word
  ownForm : word.head?.any Char.isDigit = true → isOwnForm (unbracketed word) = true
  blank_ending : Blanks ending

namespace WordLine

/-- The characters of a line. -/
def text (l : WordLine) : List Char :=
  l.margin ++ (l.gap ++ (l.word ++ (commaIf l.comma ++ l.ending)))

/-- The item of a line: its word without the brackets at the end. -/
def item (l : WordLine) : String :=
  String.ofList (unbracketed l.word)

/-- Whether a line completes the list: its word ends with a closing bracket, and no comma stands
behind it. -/
def closes (l : WordLine) : Bool :=
  !l.comma && l.word.getLast? == some ']'

theorem lastSolid_eq (l : WordLine) :
    lastSolid (l.gap ++ (l.word ++ (commaIf l.comma ++ l.ending))) = some ']' ↔
      l.closes = true := by
  have hword : lastSolid l.word = l.word.getLast? := by
    rw [← Text.getLast?_trim, trim_bareWord l.isBareWord]
  rw [closes, Text.lastSolid_append, Text.lastSolid_append, Text.lastSolid_append,
    Text.lastSolid_eq_none l.blank_ending, Text.lastSolid_eq_none l.blank_gap, hword]
  cases l.comma with
  | false => simp [commaIf, lastSolid]
  | true =>
    have hcomma : lastSolid (commaIf true) = some ',' := by decide
    simp [hcomma]

/-- A line adds its item to the list, and completes the list or leaves it open. -/
theorem step_eq (l : WordLine) (key : String) (items : List String) :
    step (.list key items) (Text.trim l.text) =
      if l.closes then (.nothing, [.entry key (.list (items ++ [l.item]))])
      else (.list key (items ++ [l.item]), []) := by
  have hitems : lineItems (dropMarks (l.gap ++ (l.word ++ (commaIf l.comma ++ l.ending)))) =
      [l.item] := by
    rw [lineItems_dropMarks l.blank_gap (isMark_head_bareWord l.isBareWord _),
      lineItems_bareWord l.isBareWord l.ownForm l.comma l.blank_ending, item]
  rw [text, step_margin l.isMargin, hitems]
  simp only [l.lastSolid_eq]

end WordLine

variable {lines : List WordLine}

/-- The items of lines up to the first that completes the list. -/
def storedItems : List WordLine → List String
  | [] => []
  | l :: ls => l.item :: (if l.closes then [] else storedItems ls)

/-- The lines behind the one that completes the list; `close` is a closing bracket behind all
lines. -/
def linesBehind (close : List Char) : List WordLine → List (List Char)
  | [] => []
  | l :: ls => if l.closes then ls.map WordLine.text ++ [close] else linesBehind close ls

/-- If no line but the last may complete the list, all words are stored. -/
theorem storedItems_of_open (h : ∀ l ∈ lines.dropLast, l.closes = false) :
    storedItems lines = lines.map WordLine.item := by
  induction lines with
  | nil => rfl
  | cons l ls ih =>
    cases ls with
    | nil => simp [storedItems]
    | cons m ls =>
      rw [List.dropLast_cons_cons, List.forall_mem_cons] at h
      rw [storedItems, h.1, if_neg Bool.false_ne_true, ih h.2]
      rfl

theorem linesBehind_suffix (close : List Char) (lines : List WordLine) :
    linesBehind close lines <:+ lines.map WordLine.text ++ [close] := by
  induction lines with
  | nil => exact List.nil_suffix
  | cons l ls ih =>
    rw [linesBehind, List.map_cons, List.cons_append]
    split
    · exact List.suffix_cons _ _
    · exact ih.trans (List.suffix_cons _ _)

/-- If any lines are behind the list, the last of them is the closing bracket. -/
theorem eq_of_mem_getLast?_linesBehind {l : List Char}
    (hl : l ∈ (linesBehind close lines).getLast?) : l = close := by
  obtain ⟨first, hsplit⟩ := linesBehind_suffix close lines
  have hlast := congrArg List.getLast? hsplit
  rw [List.getLast?_append, Option.mem_def.mp hl, List.getLast?_concat] at hlast
  exact Option.some.inj hlast

/-! ### Reading the lines -/

/-- Reading the lines of a list enters the items, and goes on with the lines behind the one that
completes it. -/
theorem readLines_wordLines (hclose : Continuation [] [close]) (done : List String)
    (rest : List (List Char)) :
    readLines (.list key done) ((lines.map WordLine.text ++ [close]).map Text.trim ++ rest) =
      .entry key (.list (done ++ storedItems lines)) ::
        readLines .nothing ((linesBehind close lines).map Text.trim ++ rest) := by
  induction lines generalizing done with
  | nil => exact readLines_continuation hclose (by simp) done rest
  | cons l ls ih =>
    rw [List.map_cons, List.cons_append, List.map_cons, List.cons_append, readLines_cons, l.step_eq]
    cases hcloses : l.closes with
    | true => simp [storedItems, linesBehind, hcloses]
    | false =>
      simp only [Bool.false_eq_true, if_false, List.nil_append]
      rw [ih]
      simp [storedItems, linesBehind, hcloses]

/-! ### Scripts -/

/-- The lines of a list of bare words: the line that opens it, its items and a closing bracket. -/
def listLines (head g : List Char) (lines : List WordLine) (close : List Char) :
    List (List Char) :=
  (head ++ '[' :: g) :: (lines.map WordLine.text ++ [close])

theorem readLines_listLines (hhead : KeyHead key head) (hkey : IsKey key.toList) (hg : Blanks g)
    (hclose : Continuation [] [close]) (hp : Settled p) (rest : List (List Char)) :
    readLines p ((listLines head g lines close).map Text.trim ++ rest) =
      finish p ++ .entry key (.list (storedItems lines)) ::
        readLines .nothing ((linesBehind close lines).map Text.trim ++ rest) := by
  have hopen : lastSolid g ≠ some ']' := by simp [Text.lastSolid_eq_none hg]
  have hitems : lineItems g = [] := (ItemRow.blank hg).lineItems_eq
  rw [listLines, List.map_cons, List.cons_append, readLines_cons, step_head hp hkey hhead,
    if_neg hopen, hitems, readLines_wordLines hclose, List.nil_append]

/-- A list of bare words between other lines of a block is entered between their entries. -/
theorem eventsOf_listLines (hhead : KeyHead key head) (hkey : IsKey key.toList) (hg : Blanks g)
    (hclose : Continuation [] [close])
    (hfeed : ∀ l ∈ front ++ (listLines head g lines close ++ rest), '\n' ∉ l)
    (hfront : Settled (stateAfter .nothing (front.map Text.trim))) :
    eventsOf (Text.separated (front ++ (listLines head g lines close ++ rest))) =
      readLines .nothing (front.map Text.trim) ++ .entry key (.list (storedItems lines)) ::
        eventsOf (Text.separated (linesBehind close lines ++ rest)) := by
  have hlast : Text.trim close ≠ [] := by
    obtain ⟨init, last, hinit, hlast⟩ := hclose.exists_concat
    obtain rfl : close = last := by simpa using congrArg List.getLast? hinit
    exact hlast
  have hlines : ∃ init last, listLines head g lines close = init ++ [last] ∧
      Text.trim last ≠ [] := ⟨_ :: _, close, rfl, hlast⟩
  have hbehind : ∀ l ∈ linesBehind close lines ++ rest, '\n' ∉ l := by
    rw [List.forall_mem_append] at hfeed ⊢
    rw [List.forall_mem_append] at hfeed
    refine ⟨fun l hl => hfeed.2.1 l ?_, hfeed.2.2⟩
    exact List.mem_cons_of_mem _ ((linesBehind_suffix close lines).subset hl)
  have hrows : ((linesBehind close lines ++ rest).map Text.trim).rdropWhile List.isEmpty =
      (linesBehind close lines).map Text.trim ++ (rest.map Text.trim).rdropWhile List.isEmpty := by
    rw [List.map_append]
    refine Text.rdropWhile_append ?_ _
    intro row hrow
    rw [List.getLast?_map, Option.mem_def, Option.map_eq_some_iff] at hrow
    obtain ⟨l, hl, rfl⟩ := hrow
    rw [eq_of_mem_getLast?_linesBehind hl]
    simpa using hlast
  rw [eventsOf_separated_append hlines hfeed, readLines_append,
    readLines_listLines hhead hkey hg hclose hfront, readLines_eq .nothing (front.map Text.trim),
    eventsOf_separated_lines hbehind, hrows]
  simp

/-- **Bare words in a list.** In every script and every block, and behind lines that leave no list
open, a list with one bare word on each line is entered under its key: the words in order, each
without the brackets at its end, up to the first line that completes the list. The lines behind it
are read as if a block began with them. If no line but the last may complete the list, these are all
words, and a word is kept as it is exactly if it does not end with a bracket. -/
theorem read_bareWords (hhead : KeyHead key head) (hkey : IsKey key.toList) (hg : Blanks g)
    (hclose : Continuation [] [close])
    (hblock : IsBlock before opening (front ++ (listLines head g lines close ++ rest)))
    (hfront : Settled (stateAfter .nothing (front.map Text.trim))) (after : List Char) :
    let text := scriptOf before opening (front ++ (listLines head g lines close ++ rest)) after
    let behind := eventsOf (Text.separated (linesBehind close lines ++ rest))
    read text = Reading.ofEvents (readLines .nothing (front.map Text.trim) ++
        .entry key (.list (storedItems lines)) :: behind) ∧
      (key ∉ (entriesOf behind).map Prod.fst →
        (read text).manifest.get? key = some (.list (storedItems lines))) ∧
      ((∀ l ∈ lines.dropLast, l.closes = false) →
        storedItems lines = lines.map WordLine.item) ∧
      ∀ l ∈ lines, l.item = String.ofList l.word ↔
        ∀ c ∈ l.word.getLast?, isListMark c = false := by
  intro text behind
  have hread : read text = Reading.ofEvents (readLines .nothing (front.map Text.trim) ++
      .entry key (.list (storedItems lines)) :: behind) := by
    rw [read_of_block (hblock.block?_eq after),
      eventsOf_listLines hhead hkey hg hclose hblock.no_feed hfront]
  refine ⟨hread, fun hlater => ?_, storedItems_of_open, fun l _ => ?_⟩
  · rw [hread, get?_ofEvents_list hlater]
  · rw [WordLine.item, String.ofList_inj, unbracketed_eq_self_iff]

theorem read_bareWords_of_versions :
    let lines := ["#   requests>=2.31,", "# typer[all],", "#0.1.0 ", "#\t42,", "# True",
      "# rich[jupyter]"].map String.toList
    let block := ["# dependencies = [".toList] ++ (lines ++ ["# ]".toList])
    IsBlock [] (openingMark ++ ['\n']) (["# title = A".toList] ++ (block ++ [[]])) ∧
      (read (scriptOf [] (openingMark ++ ['\n']) (["# title = A".toList] ++ (block ++ [[]]))
        [])).manifest.get? "dependencies" = some (.list
          ["requests>=2.31", "typer[all", "0.1.0", "42", "True", "rich[jupyter"]) := by
  intro lines block
  have hmargin : Margin "#".toList := @Margin.mk [] [] (by decide) (List.all_eq_true.mp rfl)
  have hspaced : Margin "# ".toList := @Margin.mk [] [' '] (by decide) (List.all_eq_true.mp rfl)
  have hhead : KeyHead "dependencies" "# dependencies = ".toList :=
    @KeyHead.comment _ "# ".toList [] [' '] [' '] hspaced (by decide) (by decide) (by decide)
  have hclose : Continuation [] ["# ]".toList] :=
    @Continuation.close _ _ [] [] hspaced (.blank (by decide)) (by decide)
  let words : List WordLine := [
    ⟨_, "   ".toList, "requests>=2.31".toList, true, [], hmargin, by decide,
      ⟨by decide, by decide⟩, by decide, by decide⟩,
    ⟨_, " ".toList, "typer[all]".toList, true, [], hmargin, by decide,
      ⟨by decide, by decide⟩, by decide, by decide⟩,
    ⟨_, [], "0.1.0".toList, false, [' '], hmargin, by decide,
      ⟨by decide, by decide⟩, by decide +kernel, by decide⟩,
    ⟨_, ['\t'], "42".toList, true, [], hmargin, by decide,
      ⟨by decide, by decide⟩, by decide +kernel, by decide⟩,
    ⟨_, [' '], "True".toList, false, [], hmargin, by decide,
      ⟨by decide, by decide⟩, by decide, by decide⟩,
    ⟨_, [' '], "rich[jupyter]".toList, false, [], hmargin, by decide,
      ⟨by decide, by decide⟩, by decide, by decide⟩]
  have hblock : IsBlock [] (openingMark ++ ['\n'])
      (["# title = A".toList] ++ (block ++ [[]])) :=
    ⟨List.mem_cons_self, by decide +kernel, by decide +kernel, by decide +kernel⟩
  have hfront : Settled (stateAfter .nothing (["# title = A".toList].map Text.trim)) := by
    decide +kernel
  have hbehind : linesBehind "# ]".toList words = ["# ]".toList] := rfl
  have hstored := (@read_bareWords _ [] _ _ [] _ _ _ words hhead (by decide) (by decide) hclose
    hblock hfront []).2.1 (by rw [hbehind]; decide +kernel)
  exact ⟨hblock, hstored⟩

/-- A word that ends with a closing bracket is not kept as it is. -/
theorem read_bareWords_of_extras :
    let lines := ["# dependencies = [", "#   typer[all],", "#   rich", "# ]", ""].map String.toList
    IsBareWord "typer[all]".toList ∧ IsBareWord "rich".toList ∧
      IsBlock [] (openingMark ++ ['\n']) lines ∧
      (read (scriptOf [] (openingMark ++ ['\n']) lines [])).manifest.get? "dependencies" ≠
        some (.list ["typer[all]", "rich"]) := by
  intro lines
  refine ⟨⟨by decide, by decide⟩, ⟨by decide, by decide⟩, ?_, by decide +kernel⟩
  exact ⟨List.mem_cons_self, by decide +kernel, by decide +kernel, by decide +kernel⟩

end Scriptorium.Manifest
