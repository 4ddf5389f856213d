/-
What each field of a command is, said of the function and of the call that marks it.

The name that a call gives is offered by one of its arguments, at the least place of an argument
that offers any (`gives_iff`). With it all fields of a command are determined by the function and
the call (`isCommandOf_iff`).
-/

import Scriptorium.Proofs.Command.ParameterKinds
import Scriptorium.Proofs.Script.Chain

namespace Scriptorium.Command

open Script (Argument Function MemberCall Phrase)

variable {before arguments : List Argument} {argument : Argument} {s : String}

/-! ### Strings -/

/-- A text is a literal that stands for a string. -/
def IsStringText (text : List Char) (s : String) : Prop :=
  Literal.parse (String.ofList text) = .ok (.str s)

theorem string?_eq_some_iff {text : List Char} : string? text = some s ↔ IsStringText text s := by
  unfold string? IsStringText
  split
  · rename_i hparse
    simp [hparse]
  · rename_i hparse
    simp only [reduceCtorEq, false_iff]
    exact hparse s

/-! ### Explicit names -/

/-- An argument behind some others offers a string as a name: it is the first positional one, or
one for `name`, and its text is that string. -/
inductive Offers (before : List Argument) : Argument → String → Prop
  | positional {text : List Char} {s : String} :
      (∀ text', .positional text' ∉ before) → IsStringText text s →
        Offers before (.positional text) s
  | named {value : List Char} {s : String} :
      IsStringText value s → Offers before (.named "name".toList value) s

/-- The argument at a place, behind some others, offers a string as a name. -/
def OffersAt (before arguments : List Argument) (i : Nat) (s : String) : Prop :=
  ∃ argument, arguments[i]? = some argument ∧ Offers (before ++ arguments.take i) argument s

/-- The string that the first of some arguments offers that offers any. -/
def IsFirstOffer (before arguments : List Argument) (s : String) : Prop :=
  ∃ i, OffersAt before arguments i s ∧ ∀ j < i, ∀ s', ¬ OffersAt before arguments j s'

/-- The name that arguments give to a command, if they give one. -/
def Gives (arguments : List Argument) (name? : Option String) : Prop :=
  ∀ s, name? = some s ↔ IsFirstOffer [] arguments s

/-- Whether an argument is positional. -/
def isPositional : Argument → Bool
  | .positional _ => true
  | .named _ _ | .spread => false

theorem any_isPositional_eq_false_iff :
    before.any isPositional = false ↔ ∀ text, .positional text ∉ before := by
  rw [List.any_eq_false]
  constructor
  · intro h text hmem
    exact h _ hmem rfl
  · intro h argument hmem hpositional
    cases argument with
    | positional text => exact h text hmem
    | named | spread => cases hpositional

/-- What an argument behind some others offers. -/
def offer? (before : List Argument) : Argument → Option String
  | .positional text => if before.any isPositional then none else string? text
  | .named name value => if name = "name".toList then string? value else none
  | .spread => none

theorem offer?_eq_some_iff : offer? before argument = some s ↔ Offers before argument s := by
  cases argument with
  | positional text =>
    rw [offer?]
    split
    · rename_i hseen
      refine ⟨nofun, fun h => ?_⟩
      cases h with
      | positional hfirst =>
        rw [any_isPositional_eq_false_iff.mpr hfirst] at hseen
        cases hseen
    · rename_i hseen
      have hfirst := any_isPositional_eq_false_iff.mp (Bool.eq_false_iff.mpr hseen)
      rw [string?_eq_some_iff]
      exact ⟨fun h => .positional hfirst h, fun | .positional _ h => h⟩
  | named name value =>
    rw [offer?]
    split
    · rename_i hname
      subst hname
      rw [string?_eq_some_iff]
      exact ⟨fun h => .named h, fun | .named h => h⟩
    · rename_i hname
      refine ⟨nofun, fun h => ?_⟩
      cases h
      exact absurd rfl hname
  | spread => exact ⟨nofun, nofun⟩

theorem offer?_eq_none_iff : offer? before argument = none ↔ ∀ s, ¬ Offers before argument s := by
  simp only [Option.eq_none_iff_forall_ne_some, ne_eq, offer?_eq_some_iff]

theorem findSome?_nameTexts_cons (before : List Argument) (argument : Argument)
    (arguments : List Argument) :
    (nameTexts (before.any isPositional) (argument :: arguments)).findSome? string? =
      (offer? before argument).or
        ((nameTexts ((before ++ [argument]).any isPositional) arguments).findSome? string?) := by
  rw [List.any_append]
  cases argument with
  | positional text =>
    cases hseen : before.any isPositional with
    | true => simp only [nameTexts, offer?, hseen, if_true, Bool.true_or, Option.none_or]
    | false =>
      have hlater : [Argument.positional text].any isPositional = true := rfl
      simp only [nameTexts, offer?, hseen, hlater, Bool.false_eq_true, if_false, Bool.or_true,
        List.findSome?_cons]
      cases string? text <;> rfl
  | named name value =>
    have hlater : [Argument.named name value].any isPositional = false := rfl
    by_cases hname : name = "name".toList
    · simp only [nameTexts, offer?, if_pos hname, hlater, Bool.or_false, List.findSome?_cons]
      cases string? value <;> rfl
    · simp only [nameTexts, offer?, if_neg hname, hlater, Bool.or_false, Option.none_or]
  | spread =>
    have hlater : [Argument.spread].any isPositional = false := rfl
    simp only [nameTexts, offer?, hlater, Bool.or_false, Option.none_or]

theorem offersAt_zero :
    OffersAt before (argument :: arguments) 0 s ↔ Offers before argument s := by
  simp [OffersAt]

theorem offersAt_succ {i : Nat} : OffersAt before (argument :: arguments) (i + 1) s ↔
    OffersAt (before ++ [argument]) arguments i s := by
  simp [OffersAt]

theorem isFirstOffer_cons : IsFirstOffer before (argument :: arguments) s ↔
    Offers before argument s ∨
      (∀ s', ¬ Offers before argument s') ∧ IsFirstOffer (before ++ [argument]) arguments s := by
  constructor
  · rintro ⟨i, hoffers, hfirst⟩
    cases i with
    | zero => exact .inl (offersAt_zero.mp hoffers)
    | succ i =>
      refine .inr ⟨fun s' h => ?_, i, offersAt_succ.mp hoffers, fun j hj s' h => ?_⟩
      · exact hfirst 0 (Nat.succ_pos i) s' (offersAt_zero.mpr h)
      · exact hfirst (j + 1) (Nat.succ_lt_succ hj) s' (offersAt_succ.mpr h)
  · rintro (h | ⟨hnone, i, hoffers, hfirst⟩)
    · exact ⟨0, offersAt_zero.mpr h, fun j hj => absurd hj (Nat.not_lt_zero j)⟩
    · refine ⟨i + 1, offersAt_succ.mpr hoffers, fun j hj s' h => ?_⟩
      cases j with
      | zero => exact hnone s' (offersAt_zero.mp h)
      | succ j => exact hfirst j (Nat.lt_of_succ_lt_succ hj) s' (offersAt_succ.mp h)

theorem findSome?_nameTexts_eq_some_iff :
    (nameTexts (before.any isPositional) arguments).findSome? string? = some s ↔
      IsFirstOffer before arguments s := by
  induction arguments generalizing before with
  | nil => simp [nameTexts, IsFirstOffer, OffersAt]
  | cons argument arguments ih =>
    rw [findSome?_nameTexts_cons, isFirstOffer_cons, Option.or_eq_some_iff, offer?_eq_some_iff,
      offer?_eq_none_iff, ih]

theorem gives_iff {name? : Option String} :
    Gives arguments name? ↔ name? = explicitName? arguments := by
  rw [Option.ext_iff]
  exact forall_congr' fun s => iff_congr Iff.rfl findSome?_nameTexts_eq_some_iff.symm

/-! ### Documentation -/

/-- The documentation that the text of a string expression gives: the string that it stands for,
cleaned, unless nothing is left of it. -/
def Documents (text? : Option (List Char)) (docstring : Option String) : Prop :=
  ∀ d, docstring = some d ↔ ∃ text s, text? = some text ∧ IsStringText text s ∧
    cleanDocstring s.toList ≠ [] ∧ d = String.ofList (cleanDocstring s.toList)

theorem docstring?_eq_some_iff {text : List Char} {d : String} :
    docstring? text = some d ↔ ∃ s, IsStringText text s ∧ cleanDocstring s.toList ≠ [] ∧
      d = String.ofList (cleanDocstring s.toList) := by
  simp only [docstring?, Option.bind_eq_some_iff, string?_eq_some_iff]
  refine exists_congr fun s => and_congr_right fun _ => ?_
  by_cases hempty : cleanDocstring s.toList = []
  · simp [hempty]
  · simp only [List.isEmpty_iff, hempty, if_false, Option.some.injEq, ne_eq, not_false_eq_true,
      true_and]
    exact eq_comm

theorem documents_iff {text? : Option (List Char)} {docstring : Option String} :
    Documents text? docstring ↔ docstring = text?.bind docstring? := by
  rw [Option.ext_iff]
  refine forall_congr' fun d => iff_congr Iff.rfl ?_
  simp only [Option.bind_eq_some_iff, docstring?_eq_some_iff, exists_and_left]

/-! ### Commands -/

/-- The marker that the call of a member is. -/
def markerOf (call : MemberCall) : Marker where
  receiver := String.ofList (Phrase.text call.receiver)
  attr := String.ofList call.name.text
  explicitName := explicitName? (Script.argumentsOf (Phrase.inside call.arguments))

/-- The command of a function that the call of a member marks: it has the name of the function, and
a parameter for each of its items that names one; its marker names what is called and the name that
is given to the call. -/
structure IsCommandOf (e : Config.Extractor) (f : Function) (call : MemberCall) (c : Command) :
    Prop where
  name : c.name = String.ofList f.name
  parameters : c.parameters = (sites f.parameters).filterMap (Site.parameter? e.fallbackType)
  docstring : Documents f.docstring c.docstring
  receiver : c.marker.receiver = String.ofList (Phrase.text call.receiver)
  attr : c.marker.attr = String.ofList call.name.text
  explicitName : Gives (Script.argumentsOf (Phrase.inside call.arguments)) c.marker.explicitName

theorem isCommandOf_iff {e : Config.Extractor} {f : Function} {call : MemberCall} {c : Command} :
    IsCommandOf e f call c ↔ ofFunction e.fallbackType (markerOf call) f = c := by
  constructor
  · rintro ⟨hname, hparameters, hdocstring, hreceiver, hattr, hexplicit⟩
    obtain ⟨name, parameters, ⟨receiver, attr, explicitName⟩, docstring⟩ := c
    rw [documents_iff] at hdocstring
    rw [gives_iff] at hexplicit
    rw [← parametersOf_eq] at hparameters
    subst hname hparameters hdocstring hreceiver hattr hexplicit
    rfl
  · rintro rfl
    exact ⟨rfl, parametersOf_eq _ _, documents_iff.mpr rfl, rfl, rfl, gives_iff.mpr rfl⟩

end Scriptorium.Command
