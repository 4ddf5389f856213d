/-
The signature of a wrapper is one line from which the command can be read back.

`Signature.read?` takes a signature apart: it cuts the parameter list at the commas outside
brackets and strings, the annotation of a parameter at the equals sign outside them, and tells the
kinds from the marks between the parameters. For names, types and an order of kinds as they are
in the source it finds what was written, whatever the defaults hold (`read?_wrapper`).
-/

import Scriptorium.Command.Wrapper
import Scriptorium.Literal.Reader
import Scriptorium.Proofs.Literal.Enclosure
import Scriptorium.Proofs.Text.CharacterClass
import Scriptorium.Proofs.Text.Cut
import Scriptorium.Text.Line

namespace Scriptorium.Signature

open Literal (Place commas marks)
open Command (isPositionalOnly)

/-! ### Reading a signature -/

/-- A parameter as a signature shows it. -/
structure Written where
  name : String
  type : String
  /-- The source of the default. -/
  default : Option String
  kind : ParameterKind
deriving DecidableEq, Repr

/-- The parameter that one part of a parameter list writes. -/
def readPart? (kind : ParameterKind) (part : List Char) : Option Written :=
  (Text.cutAt ':' part).bind fun (name, annotation) =>
    match Place.splitOutside '=' (.code 0) annotation with
    | [type] => some ⟨String.ofList name, String.ofList (Text.trim type), none, kind⟩
    | [type, value] =>
      (Text.dropStart? [' '] value).map fun source =>
        ⟨String.ofList name, String.ofList (Text.trim type), some (String.ofList source), kind⟩
    | _ => none

/-- The kind of a parameter between the parts before it, with a star among them or not, and those
behind it. -/
def kindBefore (starred : Bool) (rest : List (List Char)) : ParameterKind :=
  if ['/'] ∈ rest then .positionalOnly
  else if starred then .keywordOnly
  else .positionalOrKeyword

/-- The parameters of the parts of a list. -/
def readParts? (starred : Bool) : List (List Char) → Option (List Written)
  | [] => some []
  | part :: rest =>
    if part = ['*'] then readParts? true rest
    else if part = ['/'] then readParts? starred rest
    else
      (readPart? (kindBefore starred rest) part).bind fun parameter =>
        (readParts? starred rest).map fun parameters => parameter :: parameters

/-- The parts of a parameter list, without the spaces before them. -/
def partsOf (list : List Char) : List (List Char) :=
  if list = [] then []
  else (Place.splitOutside ',' (.code 0) list).map fun part => part.dropWhile (· == ' ')

/-- The name and the parameters of a signature. -/
def read? (text : String) : Option (String × List Written) :=
  (Text.dropStart? "def ".toList text.toList).bind fun header =>
    (Text.cutAt '(' header).bind fun (name, behind) =>
      (Text.dropEnd? "):".toList behind).bind fun list =>
        (readParts? false (partsOf list)).map fun parameters => (String.ofList name, parameters)

/-! ### What can be read back -/

/-- A name. -/
inductive IsName : List Char → Prop where
  | mk {c : Char} {s : List Char} (head : Text.isNameStart c = true)
      (tail : ∀ d ∈ s, Text.isNamePart d = true) : IsName (c :: s)

/-- A type in one line without blanks at its ends. Its brackets and strings are closed, and there
is no comma and no equals sign outside them. -/
structure IsTypeText (s : List Char) : Prop where
  trimmed : Text.trim s = s
  line : ∀ c ∈ s, c ≠ '\n' ∧ c ≠ '\r'
  closed : (Place.code 0).behind s = .code 0
  comma : ',' ∉ (Place.code 0).outside s
  equals : '=' ∉ (Place.code 0).outside s

/-- The place of a kind in a parameter list. -/
def rank : ParameterKind → Nat
  | .positionalOnly => 0
  | .positionalOrKeyword => 1
  | .keywordOnly => 2

/-- Parameters with names and types, in the order of their kinds. -/
structure Readable (ps : List Parameter) : Prop where
  ordered : ps.Pairwise fun p q => rank p.kind ≤ rank q.kind
  name : ∀ p ∈ ps, IsName p.name.toList
  type : ∀ p ∈ ps, IsTypeText p.type.toList

/-- What a signature shows of a parameter. -/
def shown (p : Parameter) : Written where
  name := p.name
  type := p.type
  default := p.default.source?.map String.ofList
  kind := p.kind

/-- The constant that a default stands for in a signature. -/
def constant? : Default → Option Literal
  | .absent => none
  | .computed => some .null
  | .literal v => some v

/-! ### Whole texts -/

/-- A text that leaves the scanner outside brackets and strings and shows no `sep` there. -/
structure Whole (sep : Char) (s : List Char) : Prop where
  behind : (Place.code 0).behind s = .code 0
  outside : sep ∉ (Place.code 0).outside s

variable {sep : Char} {s t : List Char}

theorem Whole.append (hs : Whole sep s) (ht : Whole sep t) : Whole sep (s ++ t) where
  behind := by rw [Place.behind_append, hs.behind, ht.behind]
  outside := by
    rw [Place.outside_append, hs.behind, List.mem_append, not_or]
    exact ⟨hs.outside, ht.outside⟩

theorem Whole.of_enclosed (h : Literal.Enclosed s) (hsep : sep = ',' ∨ sep = '=') :
    Whole sep s where
  behind := h.behind 0
  outside := by
    intro hmem
    obtain ⟨hcomma, hequals⟩ := h.outside sep hmem
    rcases hsep with rfl | rfl
    · exact hcomma rfl
    · exact hequals rfl

theorem Whole.of_type (h : IsTypeText s) (hsep : sep = ',' ∨ sep = '=') : Whole sep s where
  behind := h.closed
  outside := by
    rcases hsep with rfl | rfl
    · exact h.comma
    · exact h.equals

/-! ### Names -/

theorem not_mem_marks_of_isNamePart {c : Char} (h : Text.isNamePart c = true) : c ∉ marks := by
  have hnone : marks.any Text.isNamePart = false := by decide
  intro hmem
  exact List.any_eq_false.mp hnone c hmem h

theorem IsName.isNamePart (h : IsName s) : ∀ c ∈ s, Text.isNamePart c = true := by
  obtain ⟨hc, hs⟩ := h
  exact List.forall_mem_cons.mpr ⟨Text.isNamePart_of_isNameStart hc, hs⟩

theorem IsName.enclosed (h : IsName s) : Literal.Enclosed s :=
  .of_unmarked fun c hc => not_mem_marks_of_isNamePart (h.isNamePart c hc)

theorem IsName.ne_nil (h : IsName s) : s ≠ [] := by
  cases h
  exact List.cons_ne_nil _ _

/-- A character of no name does not occur in one. -/
theorem IsName.not_mem (h : IsName s) {c : Char} (hc : Text.isNamePart c = false) : c ∉ s := by
  intro hmem
  rw [h.isNamePart c hmem] at hc
  cases hc

theorem IsName.cutAt (h : IsName s) (hsep : Text.isNamePart sep = false) (rest : List Char) :
    Text.cutAt sep (s ++ sep :: rest) = some (s, rest) :=
  Text.cutAt_eq_some_iff.mpr ⟨rfl, h.not_mem hsep⟩

/-! ### One parameter -/

variable {p : Parameter}

theorem enclosed_source {d : Default} {source : List Char} (h : d.source? = some source) :
    Literal.Enclosed source := by
  cases d with
  | absent => cases h
  | computed =>
    cases h
    exact Literal.enclosed_render .null
  | literal v =>
    cases h
    exact Literal.enclosed_render v

/-- A parameter in a signature. -/
theorem render_eq (p : Parameter) :
    p.render = p.name.toList ++ ':' :: ' ' :: (p.type.toList ++
      (p.default.source?.elim [] fun source => ' ' :: '=' :: ' ' :: source)) := by
  rw [Parameter.render]
  cases p.default.source? <;> rfl

theorem render_ne_singleton (p : Parameter) (c : Char) : p.render ≠ [c] := by
  intro h
  have hlength := congrArg List.length h
  simp only [render_eq, List.length_append, List.length_cons, List.length_nil] at hlength
  omega

theorem readPart?_render (hname : IsName p.name.toList) (htype : IsTypeText p.type.toList) :
    readPart? p.kind p.render = some (shown p) := by
  have hspace : Whole '=' [' '] := ⟨rfl, by decide⟩
  have hbefore := hspace.append (.of_type htype (.inr rfl))
  have hblank : Text.isBlank ' ' = true := by decide
  rw [render_eq, readPart?, hname.cutAt (by decide), Option.bind_some, shown]
  cases hsource : p.default.source? with
  | none =>
    have hsplit := Place.splitOutside_of_not_mem hbefore.outside
    rw [List.singleton_append] at hsplit
    simp only [Option.elim_none, List.append_nil, hsplit]
    rw [Text.trim_cons_of_isBlank hblank, htype.trimmed]
    simp
  | some source =>
    have hvalue := hspace.append (.of_enclosed (enclosed_source hsource) (.inr rfl))
    have hsplit := Place.splitOutside_append (hbefore.append hspace).outside
      (hbefore.append hspace).behind (' ' :: source)
    rw [← List.singleton_append (x := ' ') (l := source),
      Place.splitOutside_of_not_mem hvalue.outside] at hsplit
    simp only [List.cons_append, List.append_assoc, List.nil_append] at hsplit
    simp only [Option.elim_some, hsplit]
    rw [Text.trim_cons_of_isBlank hblank, Text.trim_concat_of_isBlank hblank, htype.trimmed]
    simp [Text.dropStart?]

/-! ### The parts of a parameter list -/

/-- A text that can stand between commas. -/
structure IsPart (s : List Char) : Prop where
  whole : Whole ',' s
  ne_nil : s ≠ []
  head : ∀ c ∈ s.head?, c ≠ ' '
  line : ∀ c ∈ s, c ≠ '\n' ∧ c ≠ '\r'

theorem isPart_star : IsPart ['*'] where
  whole := ⟨rfl, by decide⟩
  ne_nil := List.cons_ne_nil _ _
  head := by simp
  line := by simp

theorem isPart_slash : IsPart ['/'] where
  whole := ⟨rfl, by decide⟩
  ne_nil := List.cons_ne_nil _ _
  head := by simp
  line := by simp

/-- The text of a default with the equals sign before it. -/
theorem whole_default (d : Default) :
    Whole ',' (d.source?.elim [] fun source => ' ' :: '=' :: ' ' :: source) := by
  have hequals : Whole ',' [' ', '=', ' '] := ⟨rfl, by decide⟩
  cases hsource : d.source? with
  | none => exact ⟨rfl, by simp⟩
  | some source => exact hequals.append (.of_enclosed (enclosed_source hsource) (.inl rfl))

theorem line_default (d : Default) :
    ∀ c ∈ d.source?.elim [] fun source => ' ' :: '=' :: ' ' :: source, c ≠ '\n' ∧ c ≠ '\r' := by
  cases hsource : d.source? with
  | none => simp
  | some source =>
    simp only [Option.elim_some, List.forall_mem_cons]
    exact ⟨by decide, by decide, by decide, (enclosed_source hsource).line⟩

theorem isPart_render (hname : IsName p.name.toList) (htype : IsTypeText p.type.toList) :
    IsPart p.render := by
  have hcolon : Whole ',' [':', ' '] := ⟨rfl, by decide⟩
  rw [render_eq]
  refine ⟨?whole, by simp, ?head, ?line⟩
  case whole =>
    have hannotation := (Whole.of_type htype (.inl rfl)).append (whole_default p.default)
    exact (Whole.of_enclosed hname.enclosed (.inl rfl)).append (hcolon.append hannotation)
  case head =>
    obtain ⟨d, ds, hd⟩ := List.exists_cons_of_ne_nil hname.ne_nil
    have hmem : d ∈ p.name.toList := hd ▸ List.mem_cons_self
    intro c hc
    rw [hd] at hc
    cases hc
    rintro rfl
    exact hname.not_mem (by decide) hmem
  case line =>
    simp only [List.forall_mem_append, List.forall_mem_cons]
    exact ⟨hname.enclosed.line, by decide, by decide, htype.line, line_default p.default⟩

theorem IsPart.dropWhile_eq (h : IsPart s) : s.dropWhile (· == ' ') = s := by
  cases s with
  | nil => rfl
  | cons c s =>
    have hc : c ≠ ' ' := h.head c rfl
    rw [List.dropWhile_cons_of_neg (by simpa using hc)]

theorem splitOutside_tailOf {texts : List (List Char)} (hs : Whole ',' s)
    (h : ∀ t ∈ texts, IsPart t) :
    (Place.code 0).splitOutside ',' (s ++ Literal.tailOf texts) =
      s :: texts.map fun t => ' ' :: t := by
  induction texts generalizing s with
  | nil =>
    rw [Literal.tailOf, List.flatMap_nil, List.append_nil]
    exact Place.splitOutside_of_not_mem hs.outside
  | cons t texts ih =>
    rw [List.forall_mem_cons] at h
    have hspace : Whole ',' [' '] := ⟨rfl, by decide⟩
    have htail : Literal.tailOf (t :: texts) = ',' :: ([' '] ++ t ++ Literal.tailOf texts) := by
      simp [Literal.tailOf]
    rw [htail, Place.splitOutside_append hs.outside hs.behind,
      ih (hspace.append h.1.whole) h.2]
    rfl

/-- A list of parts is cut into its parts again. -/
theorem partsOf_commas {texts : List (List Char)} (h : ∀ t ∈ texts, IsPart t) :
    partsOf (commas texts) = texts := by
  cases texts with
  | nil => rfl
  | cons t texts =>
    rw [List.forall_mem_cons] at h
    have hne : commas (t :: texts) ≠ [] := by
      simp [Literal.commas_cons, h.1.ne_nil]
    have hdrop : (texts.map fun u => ' ' :: u).map (·.dropWhile (· == ' ')) = texts := by
      rw [List.map_map]
      exact List.map_congr_left (g := id) (fun u hu => (h.2 u hu).dropWhile_eq) |>.trans
        (List.map_id texts)
    rw [partsOf, if_neg hne, Literal.commas_cons, splitOutside_tailOf h.1.whole h.2,
      List.map_cons, h.1.dropWhile_eq, hdrop]

/-! ### Marks and kinds -/

theorem isPositionalOnly_iff {p : Parameter} :
    isPositionalOnly p = true ↔ p.kind = .positionalOnly := by
  simp [isPositionalOnly]

theorem parts_of_keywordOnly (hkind : p.kind = .keywordOnly) (starred : Bool)
    (ps : List Parameter) : Command.parts starred (p :: ps) =
      (if starred then [] else [['*']]) ++ p.render :: Command.parts true ps := by
  cases starred <;> simp [Command.parts, isPositionalOnly, hkind]

theorem parts_of_ne (hkind : p.kind ≠ .keywordOnly) (starred : Bool) (ps : List Parameter) :
    Command.parts starred (p :: ps) = p.render ::
      ((if isPositionalOnly p && !ps.any isPositionalOnly then [['/']] else [])
        ++ Command.parts starred ps) := by
  have hstar : (p.kind == .keywordOnly && !starred) = false := by simp [hkind]
  rw [Command.parts, hstar, Bool.or_false]
  rfl

theorem mem_parts {starred : Bool} {ps : List Parameter} (h : t ∈ Command.parts starred ps) :
    t = ['*'] ∨ t = ['/'] ∨ ∃ p ∈ ps, t = p.render := by
  induction ps generalizing starred with
  | nil => cases h
  | cons p ps ih =>
    simp only [Command.parts, List.mem_append, List.mem_cons] at h
    rcases h with (h | rfl | h) | h
    · split at h
      · exact .inl (List.mem_singleton.mp h)
      · cases h
    · exact .inr (.inr ⟨p, List.mem_cons_self, rfl⟩)
    · split at h
      · exact .inr (.inl (List.mem_singleton.mp h))
      · cases h
    · rcases ih h with h | h | ⟨q, hq, h⟩
      · exact .inl h
      · exact .inr (.inl h)
      · exact .inr (.inr ⟨q, List.mem_cons_of_mem p hq, h⟩)

/-- There is a slash exactly if a parameter is positional only. -/
theorem slash_mem_parts (starred : Bool) (ps : List Parameter) :
    ['/'] ∈ Command.parts starred ps ↔ ps.any isPositionalOnly = true := by
  induction ps generalizing starred with
  | nil => simp [Command.parts]
  | cons p ps ih =>
    have hrender : ['/'] ≠ p.render := (render_ne_singleton p '/').symm
    rw [Command.parts]
    simp only [List.mem_append, List.mem_cons, ih, hrender, false_or, List.any_cons,
      Bool.or_eq_true]
    cases hp : isPositionalOnly p <;> cases hps : ps.any isPositionalOnly <;>
      cases hstar : (p.kind == .keywordOnly && !starred) <;> simp

theorem readParts?_star (starred : Bool) (rest : List (List Char)) :
    readParts? starred (['*'] :: rest) = readParts? true rest := by
  simp [readParts?]

theorem readParts?_slash (starred : Bool) (rest : List (List Char)) :
    readParts? starred (['/'] :: rest) = readParts? starred rest := by
  simp [readParts?]

theorem readParts?_render {starred : Bool} {rest : List (List Char)} {ws : List Written}
    (hname : IsName p.name.toList) (htype : IsTypeText p.type.toList)
    (hkind : kindBefore starred rest = p.kind) (hrest : readParts? starred rest = some ws) :
    readParts? starred (p.render :: rest) = some (shown p :: ws) := by
  rw [readParts?, if_neg (render_ne_singleton p '*'), if_neg (render_ne_singleton p '/'), hkind,
    readPart?_render hname htype, hrest]
  rfl

/-- Behind a parameter that is not positional only there is none that is. -/
theorem Readable.any_eq_false {ps : List Parameter} (h : Readable (p :: ps))
    (hkind : p.kind ≠ .positionalOnly) : ps.any isPositionalOnly = false := by
  rw [List.any_eq_false]
  intro q hq hpositional
  have hrank := List.rel_of_pairwise_cons h.ordered hq
  rw [isPositionalOnly_iff.mp hpositional] at hrank
  cases hp : p.kind with
  | positionalOnly => exact hkind hp
  | positionalOrKeyword => simp [hp, rank] at hrank
  | keywordOnly => simp [hp, rank] at hrank

theorem Readable.tail {ps : List Parameter} (h : Readable (p :: ps)) : Readable ps where
  ordered := h.ordered.of_cons
  name q hq := h.name q (List.mem_cons_of_mem p hq)
  type q hq := h.type q (List.mem_cons_of_mem p hq)

theorem Readable.keywordOnly {ps : List Parameter} (h : Readable (p :: ps))
    (hkind : p.kind = .keywordOnly) : ∀ q ∈ ps, q.kind = .keywordOnly := by
  intro q hq
  have hrank := List.rel_of_pairwise_cons h.ordered hq
  rw [hkind] at hrank
  cases hk : q.kind with
  | keywordOnly => rfl
  | positionalOnly => simp [hk, rank] at hrank
  | positionalOrKeyword => simp [hk, rank] at hrank

/-- In front of parameters in order, a parameter that is not keyword only has the kind that the
parts behind it show. -/
theorem kindBefore_of_ne {ps : List Parameter} (h : Readable (p :: ps))
    (hkind : p.kind ≠ .keywordOnly) :
    kindBefore false ((if isPositionalOnly p && !ps.any isPositionalOnly then [['/']] else [])
      ++ Command.parts false ps) = p.kind := by
  have hmem : ['/'] ∈ (if isPositionalOnly p && !ps.any isPositionalOnly then [['/']] else [])
      ++ Command.parts false ps ↔ p.kind = .positionalOnly := by
    rw [List.mem_append, slash_mem_parts, ← isPositionalOnly_iff]
    cases hp : isPositionalOnly p with
    | true => cases ps.any isPositionalOnly <;> simp
    | false =>
      have hany := h.any_eq_false fun heq => by simp [isPositionalOnly_iff.mpr heq] at hp
      simp [hany]
  cases hp : p.kind with
  | positionalOnly => rw [kindBefore, if_pos (hmem.mpr hp)]
  | positionalOrKeyword =>
    have hslash := mt hmem.mp (by simp [hp])
    rw [kindBefore, if_neg hslash]
    rfl
  | keywordOnly => exact absurd hp hkind

/-- The marks show all kinds: behind a star that was read, only keyword-only parameters follow. -/
theorem readParts?_parts {starred : Bool} {ps : List Parameter} (h : Readable ps)
    (hstarred : starred = true → ∀ p ∈ ps, p.kind = .keywordOnly) :
    readParts? starred (Command.parts starred ps) = some (ps.map shown) := by
  induction ps generalizing starred with
  | nil => rfl
  | cons p ps ih =>
    have hname := h.name p List.mem_cons_self
    have htype := h.type p List.mem_cons_self
    by_cases hkind : p.kind = .keywordOnly
    · have hslash : ['/'] ∉ Command.parts true ps := by
        rw [slash_mem_parts, h.any_eq_false (by simp [hkind])]
        decide
      have hbefore : kindBefore true (Command.parts true ps) = p.kind := by
        rw [kindBefore, if_neg hslash, hkind]
        rfl
      have hrest : readParts? true (Command.parts true ps) = some (ps.map shown) :=
        ih h.tail fun _ => h.keywordOnly hkind
      have hread := readParts?_render hname htype hbefore hrest
      rw [parts_of_keywordOnly hkind]
      cases starred with
      | true => exact hread
      | false => exact (readParts?_star _ _).trans hread
    · have hfalse : starred = false := by
        rw [Bool.eq_false_iff]
        exact fun htrue => hkind (hstarred htrue p List.mem_cons_self)
      subst hfalse
      have hrest : readParts? false (Command.parts false ps) = some (ps.map shown) :=
        ih h.tail (by simp)
      rw [parts_of_ne hkind]
      apply readParts?_render hname htype (kindBefore_of_ne h hkind)
      split
      · exact (readParts?_slash _ _).trans hrest
      · exact hrest

/-! ### The whole signature -/

theorem dropEnd?_append (s ending : List Char) :
    Text.dropEnd? ending (s ++ ending) = some s :=
  Text.dropEnd?_eq_some_iff.mpr rfl

theorem isPart_of_mem {ps : List Parameter} (h : Readable ps) :
    ∀ t ∈ Command.parts false ps, IsPart t := by
  intro t ht
  rcases mem_parts ht with rfl | rfl | ⟨p, hp, rfl⟩
  · exact isPart_star
  · exact isPart_slash
  · exact isPart_render (h.name p hp) (h.type p hp)

theorem line_commas {texts : List (List Char)} (h : ∀ t ∈ texts, IsPart t) :
    ∀ c ∈ commas texts, c ≠ '\n' ∧ c ≠ '\r' := by
  cases texts with
  | nil => simp [commas]
  | cons t texts =>
    rw [List.forall_mem_cons] at h
    rw [Literal.commas_cons, List.forall_mem_append]
    refine ⟨h.1.line, ?_⟩
    intro c hc
    obtain ⟨u, hu, hc⟩ := List.mem_flatMap.mp hc
    simp only [List.mem_cons] at hc
    rcases hc with rfl | rfl | hc
    · decide
    · decide
    · exact (h.2 u hu).line c hc

theorem toList_wrapper (name : String) (c : Command) :
    (c.wrapper name).toList = "def ".toList ++ (name.toList ++
      '(' :: (commas (Command.parts false c.parameters) ++ "):".toList)) := by
  have hchars : c.wrapperChars name = "def ".toList ++ name.toList ++
      '(' :: (commas (Command.parts false c.parameters) ++ "):".toList) := by
    delta Command.wrapperChars
    rfl
  rw [Command.wrapper, String.toList_ofList, hchars, List.append_assoc]

theorem line_wrapper {name : String} {c : Command} (hname : IsName name.toList)
    (h : Readable c.parameters) : ∀ d ∈ (c.wrapper name).toList, d ≠ '\n' ∧ d ≠ '\r' := by
  rw [toList_wrapper]
  simp only [List.forall_mem_append, List.forall_mem_cons]
  exact ⟨by simp, hname.enclosed.line, by decide, line_commas (isPart_of_mem h), by simp⟩

/-- The default that a signature shows is read as the constant it stands for. -/
theorem parse_source {d : Default}
    (h : ∀ v ∈ constant? d, Literal.FloatFree v ∧ Literal.Writable v) :
    (d.source?.map String.ofList).map Literal.parse = (constant? d).map .ok := by
  have hparse {v : Literal} (hv : v ∈ constant? d) : Literal.parse v.text = .ok v :=
    Literal.parse_of_writable (h v hv).1 (h v hv).2
  cases d with
  | absent => rfl
  | computed => exact congrArg some (hparse rfl)
  | literal v => exact congrArg some (hparse rfl)

/-- **A signature can be read back.** For parameters in the order of their kinds, with names and
type texts, the signature is one line. Cut at the commas outside brackets and strings it gives the
parameters in order, with their names, types and kinds. The source of a default is read as the
constant that the default stands for, unless a floating-point number is in it or what no source
denotes. -/
theorem read?_wrapper {name : String} {c : Command} (hname : IsName name.toList)
    (h : Readable c.parameters) :
    (∀ d ∈ (c.wrapper name).toList, d ≠ '\n' ∧ d ≠ '\r') ∧
      read? (c.wrapper name) = some (name, c.parameters.map shown) ∧
      ∀ p ∈ c.parameters, (∀ v ∈ constant? p.default, Literal.FloatFree v ∧ Literal.Writable v) →
        (shown p).default.map Literal.parse = (constant? p.default).map .ok := by
  refine ⟨line_wrapper hname h, ?_, fun p _ hp => parse_source hp⟩
  have hheader := Text.dropStart?_eq_some_iff.mpr (toList_wrapper name c)
  have hparts := partsOf_commas (isPart_of_mem h)
  rw [read?, hheader, Option.bind_some, hname.cutAt (by decide), Option.bind_some]
  dsimp only
  rw [dropEnd?_append, Option.bind_some, hparts, readParts?_parts h (by simp), Option.map_some,
    String.ofList_toList]

/-- A command with all kinds of parameters; the defaults hold what a signature is cut at. -/
def mixed : Command where
  name := "join"
  parameters := [
    { name := "left", type := "str", kind := .positionalOnly },
    { name := "by", type := "dict[str, int]",
      default := .literal (.dict [(.str "a='(\n,", .tuple [.int 1, .str "]"])]) },
    { name := "mode", type := "str", default := .computed, kind := .keywordOnly }]

theorem read?_wrapper_mixed :
    IsName "out_join".toList ∧ Readable mixed.parameters ∧
      read? (mixed.wrapper "out_join") = some ("out_join", mixed.parameters.map shown) ∧
      ∀ p ∈ mixed.parameters, (shown p).default.map Literal.parse =
        (constant? p.default).map .ok := by
  have hname : IsName "out_join".toList := .mk (by decide) (List.all_eq_true.mp (by decide))
  have hreadable : Readable mixed.parameters := by
    constructor
    case ordered => decide
    case name =>
      simp only [mixed, List.forall_mem_cons]
      exact ⟨.mk (by decide) (List.all_eq_true.mp (by decide)),
        .mk (by decide) (List.all_eq_true.mp (by decide)),
        .mk (by decide) (List.all_eq_true.mp (by decide)), by simp⟩
    case type =>
      simp only [mixed, List.forall_mem_cons]
      exact ⟨⟨by decide, by simp, by decide, by decide, by decide⟩,
        ⟨by decide, by simp, by decide, by decide, by decide⟩,
        ⟨by decide, by simp, by decide, by decide, by decide⟩, by simp⟩
  obtain ⟨-, hread, hdefault⟩ := read?_wrapper hname hreadable
  refine ⟨hname, hreadable, hread, ?_⟩
  intro p hp
  apply hdefault p hp
  have hne : Int64.minValue ≠ 1 := by decide
  simp only [mixed, List.mem_cons, List.not_mem_nil, or_false] at hp
  rcases hp with rfl | rfl | rfl <;>
    simp [constant?, Literal.FloatFree, Literal.Writable, Literal.parts, Literal.partsOfItems,
      Literal.partsOfPairs, hne]

end Scriptorium.Signature
