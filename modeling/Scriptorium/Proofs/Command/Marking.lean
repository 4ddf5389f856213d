/-
Which functions of a script are commands.

A function at the margin is a command exactly if one of its decorators calls a member of a marker's
name, and its marker is the first that does; the fields of the command are those of the function
and of that call. Whatever else a module holds, and whatever other decorators a function has, the
commands are the same (`extract_module`).
-/

import Scriptorium.Proofs.Command.Fields
import Scriptorium.Proofs.Script.Module

namespace Scriptorium.Command

open Script (Block Decorator DecoratorLine Definition Function Item MemberCall Module Phrase
  Statement linesFrom tokens)

variable {e : Config.Extractor}

/-! ### Markers -/

/-- Whether a decorator is written as a call. -/
def Writes (d : DecoratorLine) (call : MemberCall) : Prop :=
  Phrase.core d.phrase = call.phrase

/-- Whether a decorator calls a member of the name of a marker. -/
def Marks (markers : List String) (d : DecoratorLine) : Prop :=
  ∃ call, Writes d call ∧ String.ofList call.name.text ∈ markers

theorem marker?_decorator_eq_some_iff {markers : List String} {d : DecoratorLine} {m : Marker} :
    marker? markers d.decorator = some m ↔
      ∃ call, Writes d call ∧ String.ofList call.name.text ∈ markers ∧ markerOf call = m := by
  constructor
  · intro h
    cases hd : d.decorator with
    | memberCall receiver member text arguments =>
      obtain ⟨call, hphrase, hcall⟩ := Script.ofPhrase_eq_memberCall_iff.mp hd
      rw [MemberCall.decorator] at hcall
      cases hcall
      rw [hd, marker?] at h
      split_ifs at h with hmember
      exact ⟨call, hphrase.symm, hmember, Option.some.inj h⟩
    | call | member | name | unrecognized => simp [hd, marker?] at h
  · rintro ⟨call, hwrites, hmember, rfl⟩
    rw [DecoratorLine.decorator, hwrites, call.ofPhrase_phrase, MemberCall.decorator, marker?,
      if_pos hmember]
    rfl

theorem marker?_decorator_eq_none_iff {markers : List String} {d : DecoratorLine} :
    marker? markers d.decorator = none ↔ ¬ Marks markers d := by
  constructor
  · rintro h ⟨call, hwrites, hmember⟩
    have hsome := marker?_decorator_eq_some_iff.mpr ⟨call, hwrites, hmember, rfl⟩
    rw [h] at hsome
    cases hsome
  · intro h
    by_contra hne
    obtain ⟨m, hm⟩ := Option.ne_none_iff_exists'.mp hne
    obtain ⟨call, hwrites, hmember, -⟩ := marker?_decorator_eq_some_iff.mp hm
    exact h ⟨call, hwrites, hmember⟩

/-! ### Marked functions -/

/-- Whether a block is a function with a decorator that marks it. -/
def IsMarked (e : Config.Extractor) (b : Block) : Prop :=
  (∃ f, b.definition? = some (.function f)) ∧ ∃ d ∈ b.decorators, Marks e.markers d

/-- The command of a marked function: its fields are those of the function and of the first
decorator that marks it. -/
inductive Yields (e : Config.Extractor) : Block → Command → Prop
  | intro {b : Block} {f : Function} {d : DecoratorLine} {earlier later : List DecoratorLine}
      {call : MemberCall} {c : Command} :
      b.definition? = some (.function f) → b.decorators = earlier ++ d :: later →
      (∀ d' ∈ earlier, ¬ Marks e.markers d') → Writes d call →
      String.ofList call.name.text ∈ e.markers → IsCommandOf e f call c → Yields e b c

/-- The command of a block. -/
def ofBlock? (e : Config.Extractor) (b : Block) : Option Command :=
  ofStatement? e b.statement

theorem ofBlock?_of_function {b : Block} {f : Function} (h : b.definition? = some (.function f)) :
    ofBlock? e b = (b.decorators.findSome? fun d => marker? e.markers d.decorator).map
      fun marker => ofFunction e.fallbackType marker f := by
  rw [Block.definition?] at h
  rw [ofBlock?, Block.statement, Script.statementOf, h]
  cases b.decorators with
  | nil => rfl
  | cons d ds =>
    change Option.map _ (List.findSome? (marker? e.markers) _) = _
    rw [List.findSome?_map]
    rfl

theorem ofBlock?_of_ne_function {b : Block} (h : ∀ f, b.definition? ≠ some (.function f)) :
    ofBlock? e b = none := by
  rw [ofBlock?, Block.statement, Script.statementOf]
  cases hd : b.definition? with
  | none =>
    rw [Block.definition?] at hd
    rw [hd]
    rfl
  | some definition =>
    cases definition with
    | function f => exact absurd hd (h f)
    | classDefinition =>
      rw [Block.definition?] at hd
      rw [hd]
      dsimp only
      split <;> rfl

/-- A block is a command exactly if it is a marked function. -/
theorem ofBlock?_eq_some_iff {b : Block} {c : Command} :
    ofBlock? e b = some c ↔ Yields e b c := by
  constructor
  · intro h
    by_cases hfunction : ∃ f, b.definition? = some (.function f)
    · obtain ⟨f, hf⟩ := hfunction
      rw [ofBlock?_of_function hf, Option.map_eq_some_iff] at h
      obtain ⟨marker, hmarker, rfl⟩ := h
      obtain ⟨earlier, d, later, hds, hd, hearlier⟩ := List.findSome?_eq_some_iff.mp hmarker
      obtain ⟨call, hwrites, hmember, rfl⟩ := marker?_decorator_eq_some_iff.mp hd
      exact .intro hf hds (fun d' hd' => marker?_decorator_eq_none_iff.mp (hearlier d' hd'))
        hwrites hmember (isCommandOf_iff.mpr rfl)
    · rw [ofBlock?_of_ne_function (not_exists.mp hfunction)] at h
      cases h
  · rintro ⟨hf, hds, hearlier, hwrites, hmember, hc⟩
    rw [ofBlock?_of_function hf, Option.map_eq_some_iff]
    refine ⟨_, List.findSome?_eq_some_iff.mpr ⟨_, _, _, hds,
      marker?_decorator_eq_some_iff.mpr ⟨_, hwrites, hmember, rfl⟩, fun d' hd' => ?_⟩,
      isCommandOf_iff.mp hc⟩
    exact marker?_decorator_eq_none_iff.mpr (hearlier d' hd')

theorem ofBlock?_eq_none_iff {b : Block} : ofBlock? e b = none ↔ ¬ IsMarked e b := by
  by_cases hfunction : ∃ f, b.definition? = some (.function f)
  · obtain ⟨f, hf⟩ := hfunction
    rw [ofBlock?_of_function hf, Option.map_eq_none_iff, List.findSome?_eq_none_iff, IsMarked, hf]
    simp only [marker?_decorator_eq_none_iff, Option.some.injEq, Definition.function.injEq,
      exists_eq', true_and, not_exists, not_and]
  · rw [ofBlock?_of_ne_function (not_exists.mp hfunction)]
    simp [IsMarked, hfunction]

/-! ### Scripts -/

/-- The commands of statements do not depend on the remarks among them. -/
theorem ofStatements_filter (statements : List Statement) :
    ofStatements e (statements.filter (· != .remark)) = ofStatements e statements := by
  rw [ofStatements, ofStatements, List.filterMap_filter]
  apply List.filterMap_congr
  intro statement _
  by_cases h : statement = .remark
  · simp [h, ofStatement?]
  · simp [h]

/-- Whether a script is a module as it is written. -/
def IsText (source : String) (m : Module) : Prop :=
  linesFrom 0 (tokens source.toList) = m.lines

instance (source : String) (m : Module) : Decidable (IsText source m) :=
  inferInstanceAs (Decidable (_ = _))

theorem extract_eq {source : String} {m : Module} (h : IsText source m) :
    extract e source = m.blocks.filterMap (ofBlock? e) := by
  rw [extract, Script.outline, h, ← ofStatements_filter, Script.filter_statementsOf_lines,
    ofStatements, List.filterMap_map]
  rfl

theorem forall₂_filterMap {α β : Type} {p : α → Prop} [DecidablePred p] {f : α → Option β}
    {R : α → β → Prop} (hsome : ∀ a b, f a = some b → R a b) (hnone : ∀ a, f a = none ↔ ¬ p a)
    (l : List α) : List.Forall₂ R (l.filter p) (l.filterMap f) := by
  induction l with
  | nil => exact .nil
  | cons a l ih =>
    by_cases h : p a
    · obtain ⟨b, hb⟩ := Option.ne_none_iff_exists'.mp fun hn => (hnone a).mp hn h
      rw [List.filter_cons_of_pos (by simpa using h), List.filterMap_cons_some hb]
      exact .cons (hsome a b hb) ih
    · rw [List.filter_cons_of_neg (by simpa using h), List.filterMap_cons_none ((hnone a).mpr h)]
      exact ih

/-! ### Insertions -/

/-- The second list is the first with insertions, what they have in common being related. -/
inductive Grown {α : Type} (new : α → Prop) (kept : α → α → Prop) : List α → List α → Prop
  | nil : Grown new kept [] []
  | keep {a b : α} {l l' : List α} : kept a b → Grown new kept l l' →
      Grown new kept (a :: l) (b :: l')
  | insert {b : α} {l l' : List α} : new b → Grown new kept l l' → Grown new kept l (b :: l')

theorem Grown.filterMap_eq {α β : Type} {new : α → Prop} {kept : α → α → Prop} {l l' : List α}
    {f : α → Option β} (h : Grown new kept l l') (hnew : ∀ a, new a → f a = none)
    (hkept : ∀ a b, kept a b → f b = f a) : l'.filterMap f = l.filterMap f := by
  induction h with
  | nil => rfl
  | keep hab _ ih => rw [List.filterMap_cons, List.filterMap_cons, hkept _ _ hab, ih]
  | insert hb _ ih => rw [List.filterMap_cons_none (hnew _ hb), ih]

/-- A block with the same function or class under more decorators, none of which marks it. -/
structure IsRedecorated (e : Config.Extractor) (b b' : Block) : Prop where
  head : b'.head = b.head
  body : b'.body = b.body
  decorators : Grown (fun d => ¬ Marks e.markers d) (fun d d' => d'.phrase = d.phrase)
    b.decorators b'.decorators

/-- What may be inserted into a module: lines without code, functions without decorators, classes
and statements that define nothing. -/
inductive IsInert : Item → Prop
  | idle {line : Phrase} (h : Script.IsIdle line) : IsInert (.idle line h)
  | undecorated {b : Block} : b.decorators = [] → IsInert (.block b)
  | noFunction {b : Block} : (∀ f, b.definition? ≠ some (.function f)) → IsInert (.block b)

/-- An item as it was, or with more decorators. -/
inductive IsKept (e : Config.Extractor) : Item → Item → Prop
  | same {item : Item} : IsKept e item item
  | redecorated {b b' : Block} : IsRedecorated e b b' → IsKept e (.block b) (.block b')

/-- A module with insertions. -/
abbrev Extends (e : Config.Extractor) : Module → Module → Prop :=
  Grown IsInert (IsKept e)

theorem IsRedecorated.ofBlock?_eq {b b' : Block} (h : IsRedecorated e b b') :
    ofBlock? e b' = ofBlock? e b := by
  have hdefinition : b'.definition? = b.definition? := by
    rw [Block.definition?, Block.definition?, h.head, h.body]
  have hmarkers := h.decorators.filterMap_eq (f := fun d => marker? e.markers d.decorator)
    (fun d hd => marker?_decorator_eq_none_iff.mpr hd)
    (fun d d' hd => by rw [DecoratorLine.decorator, DecoratorLine.decorator, hd])
  by_cases hfunction : ∃ f, b.definition? = some (.function f)
  · obtain ⟨f, hf⟩ := hfunction
    rw [ofBlock?_of_function hf, ofBlock?_of_function (hdefinition.trans hf),
      ← List.head?_filterMap, ← List.head?_filterMap, hmarkers]
  · have hne := not_exists.mp hfunction
    rw [ofBlock?_of_ne_function hne, ofBlock?_of_ne_function (hdefinition ▸ hne)]

theorem Extends.filterMap_eq {m m' : Module} (h : Extends e m m') :
    m'.blocks.filterMap (ofBlock? e) = m.blocks.filterMap (ofBlock? e) := by
  rw [Module.blocks, Module.blocks, List.filterMap_filterMap, List.filterMap_filterMap]
  refine Grown.filterMap_eq h (fun item hitem => ?_) (fun item item' hkept => ?_)
  · cases hitem with
    | idle => rfl
    | @undecorated b hb =>
      change ofBlock? e b = none
      rw [ofBlock?_eq_none_iff, IsMarked, hb]
      simp
    | @noFunction b hb => exact ofBlock?_of_ne_function hb
  · cases hkept with
    | same => rfl
    | redecorated hb => exact hb.ofBlock?_eq

open Classical in
/-- **The commands of a script are its marked functions.** For each of them there is one command, in
the order of the script, with the name and the parameters of the function, and with the receiver,
the member and the explicit name of the first of its markers. Lines without code, functions without
decorators, classes, statements that define nothing, and decorators that are no markers change
nothing, wherever they are inserted. -/
theorem extract_module {source : String} {m : Module} (h : IsText source m) :
    List.Forall₂ (Yields e) (m.blocks.filter (IsMarked e)) (extract e source) ∧
      ∀ (source' : String) (m' : Module), Extends e m m' → IsText source' m' →
        extract e source' = extract e source := by
  constructor
  · rw [extract_eq h]
    exact forall₂_filterMap (fun _ _ => ofBlock?_eq_some_iff.mp) (fun _ => ofBlock?_eq_none_iff) _
  · intro source' m' hextends h'
    rw [extract_eq h, extract_eq h', Extends.filterMap_eq hextends]

/-! ### A script and what may be added to it -/

/-- A decorator that is a marker. -/
def commandLine : DecoratorLine where
  sign := ⟨.operator, [], ['@']⟩
  phrase := tokens "app.command(x, name=\"hi\")".toList
  isSign := rfl
  isAtMargin := rfl
  isCode := by decide +kernel
  isIdle := by simp

/-- Another one. -/
def laterLine : DecoratorLine where
  sign := ⟨.operator, [], ['@']⟩
  phrase := tokens "cli.command()".toList
  isSign := rfl
  isAtMargin := rfl
  isCode := by decide +kernel
  isIdle := by simp

/-- A decorator that is none, with a comment behind it. -/
def cachedLine : DecoratorLine where
  sign := ⟨.operator, [], ['@']⟩
  phrase := tokens "app.command".toList
  idle := [tokens "# called once".toList]
  isSign := rfl
  isAtMargin := rfl
  isCode := by decide +kernel
  isIdle := by decide +kernel

/-- A function with two markers. -/
def greetBlock : Block where
  decorators := [commandLine, laterLine]
  head := tokens "def greet(name): pass".toList
  isHead := by decide +kernel
  isAtMargin := by decide +kernel
  isSuite := .inline (by decide +kernel)

/-- The same function with another decorator before the markers. -/
def cachedBlock : Block where
  decorators := [cachedLine, commandLine, laterLine]
  head := tokens "def greet(name): pass".toList
  isHead := by decide +kernel
  isAtMargin := by decide +kernel
  isSuite := .inline (by decide +kernel)

/-- A decorated class with a decorated function in it. -/
def classBlock : Block where
  decorators := [laterLine]
  head := tokens "class Robot:".toList
  body := [tokens "    @app.command()".toList, tokens "    def greet(self): pass".toList]
  isHead := by decide +kernel
  isAtMargin := by decide +kernel
  isSuite := @Script.IsSuite.indented _ (tokens "    @app.command()".toList) _ (by decide +kernel)
    (by decide +kernel) (by decide +kernel)

/-- The end of a script. -/
def endItem : Item :=
  .idle [] (by simp [Script.IsIdle])

/-- A decorated class before a function and a decorator that is no marker on it change nothing: the
command has the name of the function, and its marker is the first one. -/
theorem extract_module_of_class :
    let function := "@app.command(x, name=\"hi\")\n@cli.command()\ndef greet(name): pass\n"
    let source' := "@cli.command()\nclass Robot:\n    @app.command()\n" ++
      "    def greet(self): pass\n@app.command\n# called once\n" ++ function
    IsText function [.block greetBlock, endItem] ∧
      Extends {} [.block greetBlock, endItem] [.block classBlock, .block cachedBlock, endItem] ∧
      IsText source' [.block classBlock, .block cachedBlock, endItem] ∧
      extract {} source' = extract {} function ∧
      (extract {} source').map (fun c => (c.name, c.marker)) =
        [("greet", ⟨"app", "command", some "hi"⟩)] := by
  intro function source'
  have hfunction : IsText function [.block greetBlock, endItem] := by decide +kernel
  have hsource' : IsText source' [.block classBlock, .block cachedBlock, endItem] := by
    decide +kernel
  have hclass : classBlock.definition? = some .classDefinition := by decide +kernel
  have hcached : ¬ Marks ["command"] cachedLine :=
    marker?_decorator_eq_none_iff.mp (by decide +kernel)
  have hextends : Extends {} [.block greetBlock, endItem]
      [.block classBlock, .block cachedBlock, endItem] := by
    refine .insert (.noFunction fun f hf => ?_) (.keep (.redecorated ⟨rfl, rfl, ?_⟩)
      (.keep .same .nil))
    · rw [hclass] at hf
      cases hf
    · exact .insert hcached (.keep rfl (.keep rfl .nil))
  have hsame := (extract_module hfunction).2 source' _ hextends hsource'
  refine ⟨hfunction, hextends, hsource', hsame, ?_⟩
  rw [hsame]
  decide +kernel

end Scriptorium.Command
