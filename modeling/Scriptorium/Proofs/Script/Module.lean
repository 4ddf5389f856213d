/-
Modules as they are written: lines without code, and blocks.

A block is a statement at the margin with the decorators before it and the lines that belong to it,
whatever they are. The outline of a module is the list of its blocks (`filter_statementsOf_lines`);
lines without code leave nothing but remarks in it, and no line of a body is ever looked at as a
statement.
-/

import Scriptorium.Script.Outline
import Mathlib.Data.List.Basic
import Mathlib.Data.List.TakeWhile

namespace Scriptorium.Script

/-! ### Parts of a module -/

/-- A line that is blank or holds a comment. -/
def IsIdle (line : Phrase) : Prop :=
  ∀ t ∈ line, t.kind = .remark

instance : DecidablePred IsIdle := fun line =>
  inferInstanceAs (Decidable (∀ t ∈ line, t.kind = .remark))

/-- A decorator as it is written, with the idle lines behind it. -/
structure DecoratorLine where
  sign : Token
  phrase : Phrase
  idle : List Phrase := []
  isSign : sign.isOp "@" = true
  isAtMargin : indentation [sign] = 0
  isCode : isCode phrase = true
  isIdle : ∀ line ∈ idle, IsIdle line

/-- The lines of a decorator. -/
def DecoratorLine.lines (d : DecoratorLine) : List Phrase :=
  (d.sign :: d.phrase) :: d.idle

/-- The decorator that is written. -/
def DecoratorLine.decorator (d : DecoratorLine) : Decorator :=
  Decorator.ofPhrase (Phrase.core d.phrase)

/-- The lines that belong to a head: none if its body stands on its own line, and else lines that
are indented at least as far as the first of them that holds code. -/
inductive IsSuite (head : Phrase) : List Phrase → Prop
  | inline : opensBody head = false → IsSuite head []
  | indented {first : Phrase} {body : List Phrase} : opensBody head = true →
      firstLine? body = some first →
      (∀ line ∈ body, isCode line = true → indentation first ≤ indentation line) →
      IsSuite head body

/-- A statement at the margin, with its decorators and its body. -/
structure Block where
  decorators : List DecoratorLine := []
  head : Phrase
  body : List Phrase := []
  isHead : head.head?.any (fun t => !t.isSilent && !t.isOp "@") = true
  isAtMargin : indentation head = 0
  isSuite : IsSuite head body

namespace Block

/-- The lines of a block. -/
def lines (b : Block) : List Phrase :=
  b.decorators.flatMap DecoratorLine.lines ++ b.head :: b.body

/-- What a block defines. -/
def definition? (b : Block) : Option Definition :=
  Script.definition? b.head b.body

/-- The statement that a block is. -/
def statement (b : Block) : Statement :=
  statementOf (b.decorators.map DecoratorLine.decorator) b.head b.body

end Block

/-- What stands at the margin of a module. -/
inductive Item where
  | idle (line : Phrase) (h : IsIdle line)
  | block (b : Block)

/-- The lines of an item. -/
def Item.lines : Item → List Phrase
  | idle line _ => [line]
  | block b => b.lines

/-- The block that an item is. -/
def Item.block? : Item → Option Block
  | idle _ _ => none
  | block b => some b

/-- A module is written by its items. -/
abbrev Module := List Item

/-- The lines of a module. -/
def Module.lines (m : Module) : List Phrase :=
  m.flatMap Item.lines

/-- The blocks of a module. -/
def Module.blocks (m : Module) : List Block :=
  m.filterMap Item.block?

/-! ### Lines with code -/

variable {t : Token} {line head : Phrase} {lines rest : List Phrase} {ds : List Decorator}

theorem isCode_eq_false_of_isIdle (h : IsIdle line) : isCode line = false := by
  have hsilent : ∀ t ∈ line, t.isSilent = true := fun t ht => by simp [Token.isSilent, h t ht]
  have hcore : line.dropWhile Token.isSilent = [] := List.dropWhile_eq_nil_iff.mpr hsilent
  simp [isCode, Phrase.core, hcore]

theorem isCode_cons (h : t.isSilent = false) (ts : Phrase) : isCode (t :: ts) = true := by
  have hmem : t ∈ ((t :: ts).reverse.dropWhile Token.isSilent) := by
    rw [List.reverse_cons]
    induction ts.reverse with
    | nil => simp [h]
    | cons u us ih =>
      rw [List.cons_append, List.dropWhile_cons]
      split
      · exact ih
      · simp
  have hcore : Phrase.core (t :: ts) ≠ [] := by
    rw [Phrase.core, List.dropWhile_cons, if_neg (by simp [h])]
    intro hnil
    rw [List.reverse_eq_nil_iff] at hnil
    rw [hnil] at hmem
    cases hmem
  simpa [isCode] using hcore

theorem DecoratorLine.not_isSilent (d : DecoratorLine) : d.sign.isSilent = false := by
  have h := d.isSign
  simp only [Token.isOp, Bool.and_eq_true, beq_iff_eq] at h
  simp [Token.isSilent, h.1]

/-- The first line of a block holds code and stands at the margin. -/
theorem Block.exists_lines_cons (b : Block) :
    ∃ line lines, b.lines = line :: lines ∧ Script.isCode line = true ∧ indentation line = 0 := by
  cases hd : b.decorators with
  | nil =>
    refine ⟨b.head, b.body, by simp [Block.lines, hd], ?_, b.isAtMargin⟩
    have h := b.isHead
    cases hhead : b.head with
    | nil => simp [hhead] at h
    | cons t ts =>
      rw [hhead, List.head?_cons, Option.any_some, Bool.and_eq_true] at h
      exact isCode_cons (by simpa using h.1) ts
  | cons d ds =>
    exact ⟨d.sign :: d.phrase, _, by simp [Block.lines, hd, DecoratorLine.lines]; rfl,
      isCode_cons d.not_isSilent _, d.isAtMargin⟩

/-- No line of code behind a body is indented. -/
theorem Module.firstLine?_lines (m : Module) : firstLine? m.lines = none := by
  induction m with
  | nil => rfl
  | cons item m ih =>
    cases item with
    | idle line h =>
      simpa [Module.lines, Item.lines, firstLine?, isCode_eq_false_of_isIdle h] using ih
    | block b =>
      obtain ⟨line, lines, hlines, hcode, hmargin⟩ := b.exists_lines_cons
      simp [Module.lines, Item.lines, hlines, firstLine?, hcode, hmargin]

/-! ### Bodies -/

theorem functionOf?_congr {lines' : List Phrase} (h : firstLine? lines = firstLine? lines')
    (head : Phrase) : functionOf? head lines = functionOf? head lines' := by
  simp only [functionOf?, h]

/-- Of the lines behind a head only the first one with code can be part of a definition. -/
theorem definition?_congr {lines' : List Phrase} (h : firstLine? lines = firstLine? lines')
    (head : Phrase) : definition? head lines = definition? head lines' := by
  cases head with
  | nil => rfl
  | cons t ts => simp only [definition?, functionOf?_congr h]

theorem firstLine?_append {first : Phrase} (h : firstLine? lines = some first)
    (rest : List Phrase) : firstLine? (lines ++ rest) = some first := by
  rw [firstLine?, Option.filter_eq_some_iff] at h ⊢
  rw [List.find?_append, h.1]
  exact ⟨rfl, h.2⟩

/-- What follows a suite takes no part in it. -/
theorem IsSuite.firstLine?_append {body : List Phrase} (h : IsSuite head body)
    (hrest : firstLine? rest = none) : firstLine? (body ++ rest) = firstLine? body := by
  cases h with
  | inline => exact hrest
  | indented _ hfirst => rw [Script.firstLine?_append hfirst, hfirst]

/-- Behind a suite at most lines without code are dropped. -/
theorem IsSuite.exists_dropBody_append {body : List Phrase} (h : IsSuite head body)
    (hrest : firstLine? rest = none) :
    ∃ p : Phrase → Bool, dropBody head (body ++ rest) = rest.dropWhile p ∧
      ∀ line, isCode line = true → indentation line = 0 → p line = false := by
  cases h with
  | inline =>
    refine ⟨fun _ => false, ?_, fun _ _ _ => rfl⟩
    cases rest <;> simp [dropBody, hrest]
  | @indented first body hopens hfirst hbody =>
    refine ⟨fun l => !isCode l || indentation first ≤ indentation l, ?_, ?_⟩
    · simp only [dropBody, Script.firstLine?_append hfirst, hopens, if_true]
      apply List.dropWhile_append_of_pos
      intro line hline
      by_cases hcode : isCode line = true
      · simp [hbody line hline hcode]
      · simp [hcode]
    · intro line hcode hmargin
      have hindented := (Option.filter_eq_some_iff.mp hfirst).2
      simp only [decide_eq_true_eq] at hindented
      simp [hcode, hmargin]
      omega

/-! ### Statements -/

theorem statementsOf_idle_cons (h : IsIdle line) (ds : List Decorator) (rest : List Phrase) :
    (statementsOf ds (line :: rest)).filter (· != .remark) =
      (statementsOf ds rest).filter (· != .remark) := by
  cases line with
  | nil => rw [statementsOf]
  | cons t ts =>
    rw [statementsOf, if_pos (h t (by simp))]
    split <;> simp

/-- The decorator of a line waits for its definition behind lines without code. -/
theorem statementsOf_decorator (d : DecoratorLine) (ds : List Decorator) (rest : List Phrase) :
    statementsOf ds (d.lines ++ rest) = statementsOf (ds ++ [d.decorator]) rest := by
  have hidle : ∀ idle : List Phrase, (∀ line ∈ idle, IsIdle line) →
      statementsOf (ds ++ [d.decorator]) (idle ++ rest) =
        statementsOf (ds ++ [d.decorator]) rest := by
    intro idle h
    induction idle with
    | nil => rfl
    | cons line idle ih =>
      rw [List.forall_mem_cons] at h
      rw [List.cons_append]
      cases line with
      | nil => rw [statementsOf, ih h.2]
      | cons t ts =>
        rw [statementsOf, if_pos (h.1 t (by simp)), ih h.2]
        simp
  have hremark : d.sign.kind ≠ .remark := by
    have h := d.not_isSilent
    simp only [Token.isSilent, Bool.or_eq_false_iff, beq_eq_false_iff_ne] at h
    exact h.1
  rw [DecoratorLine.lines, List.cons_append, statementsOf, if_neg hremark, if_pos d.isSign,
    if_pos d.isCode]
  exact hidle d.idle d.isIdle

theorem statementsOf_decorators (dls : List DecoratorLine) (ds : List Decorator)
    (rest : List Phrase) :
    statementsOf ds (dls.flatMap DecoratorLine.lines ++ rest) =
      statementsOf (ds ++ dls.map DecoratorLine.decorator) rest := by
  induction dls generalizing ds with
  | nil => simp
  | cons d dls ih => simp [statementsOf_decorator, ih]

/-- A block is one statement, and at most lines without code are dropped behind it. -/
theorem exists_statementsOf_block (b : Block) (hrest : firstLine? rest = none) :
    ∃ p : Phrase → Bool,
      statementsOf [] (b.lines ++ rest) = b.statement :: statementsOf [] (rest.dropWhile p) ∧
      ∀ line, isCode line = true → indentation line = 0 → p line = false := by
  obtain ⟨p, hdrop, hp⟩ := b.isSuite.exists_dropBody_append hrest
  refine ⟨p, ?_, hp⟩
  have hhead := b.isHead
  have hdefinition := definition?_congr (b.isSuite.firstLine?_append hrest) b.head
  rw [Block.lines, List.append_assoc, statementsOf_decorators, List.nil_append, List.cons_append]
  cases hline : b.head with
  | nil => simp [hline] at hhead
  | cons t ts =>
    rw [hline] at hdefinition hdrop
    simp only [hline, List.head?_cons, Option.any_some, Bool.and_eq_true, Bool.not_eq_true',
      Token.isSilent, Bool.or_eq_false_iff, beq_eq_false_iff_ne] at hhead
    rw [statementsOf, if_neg hhead.1.1, if_neg (by simp [hhead.2]), hdrop, Block.statement,
      statementOf, statementOf, hdefinition, hline]

theorem filter_statementsOf_dropWhile {p : Phrase → Bool}
    (hp : ∀ line, isCode line = true → indentation line = 0 → p line = false) (m : Module) :
    (statementsOf [] (m.lines.dropWhile p)).filter (· != .remark) =
      (statementsOf [] m.lines).filter (· != .remark) := by
  induction m with
  | nil => rfl
  | cons item m ih =>
    cases item with
    | idle line h =>
      change (statementsOf [] ((line :: Module.lines m).dropWhile p)).filter _ =
        (statementsOf [] (line :: Module.lines m)).filter _
      rw [List.dropWhile_cons]
      split
      · rw [ih, statementsOf_idle_cons h]
      · rfl
    | block b =>
      obtain ⟨line, lines, hlines, hcode, hmargin⟩ := b.exists_lines_cons
      have hcons : Module.lines (.block b :: m) = line :: (lines ++ Module.lines m) := by
        simp [Module.lines, Item.lines, hlines]
      rw [hcons, List.dropWhile_cons, hp line hcode hmargin]
      rfl

/-- The outline of a module is the list of its blocks, but for remarks. -/
theorem filter_statementsOf_lines (m : Module) :
    (statementsOf [] m.lines).filter (· != .remark) = m.blocks.map Block.statement := by
  induction m with
  | nil => simp [Module.lines, Module.blocks, statementsOf]
  | cons item m ih =>
    cases item with
    | idle line h =>
      change (statementsOf [] (line :: Module.lines m)).filter _ = (Module.blocks m).map _
      rw [statementsOf_idle_cons h, ih]
    | block b =>
      change (statementsOf [] (b.lines ++ Module.lines m)).filter _ =
        b.statement :: (Module.blocks m).map _
      obtain ⟨p, hlines, hp⟩ := exists_statementsOf_block b (Module.firstLine?_lines m)
      have hremark : b.statement ≠ .remark := by
        rw [Block.statement, statementOf]
        split
        · split <;> simp
        · simp
      rw [hlines, List.filter_cons, if_pos (by simpa using hremark),
        filter_statementsOf_dropWhile hp, ih]

end Scriptorium.Script
