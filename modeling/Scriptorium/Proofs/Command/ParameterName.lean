/-
The names of parameters.

An item of a parameter list that begins with a name is a parameter of that name. Of the others only
a tuple with a default is one, and its name is the text of the tuple. So the names are identifiers
exactly if no tuple has a default (`names_parametersOf`).
-/

import Scriptorium.Proofs.Command.ParameterKinds
import Scriptorium.Proofs.Script.Origin
import Scriptorium.Proofs.Script.Rescan

namespace Scriptorium.Command

open Script (ParameterItem Phrase Token tokens)
open Signature (IsName)

variable {fallback source : String} {s name : List Char} {t : Token} {ts item : Phrase}

/-! ### Identifiers -/

instance : DecidablePred IsName
  | [] => isFalse nofun
  | c :: s =>
    decidable_of_iff (Text.isNameStart c = true ∧ s.all Text.isNamePart = true)
      ⟨fun h => ⟨h.1, List.all_eq_true.mp h.2⟩, fun ⟨hc, hs⟩ => ⟨hc, List.all_eq_true.mpr hs⟩⟩

theorem isName_of_plainScan {n : Nat} (h : Script.plainScan s = (.name, n)) :
    IsName (s.take n) := by
  cases s with
  | nil => cases h
  | cons c s =>
    rw [Script.plainScan] at h
    by_cases hstart : Text.isNameStart c = true
    · rw [if_pos hstart] at h
      obtain ⟨-, rfl⟩ := Prod.mk.inj h
      have hpart := Text.isNamePart_of_isNameStart hstart
      rw [← List.prefix_iff_eq_take.mp (List.takeWhile_prefix _),
        List.takeWhile_cons_of_pos hpart]
      exact ⟨hstart, fun d hd => List.mem_takeWhile_imp hd⟩
    · rw [if_neg hstart] at h
      split_ifs at h
      case neg => split at h <;> cases h
      all_goals cases h

/-- The text of a name is an identifier. -/
theorem isName_of_mem_tokens (h : t ∈ tokens s) (hname : t.kind = .name) :
    IsName t.text := by
  obtain ⟨before, rest, _, hscanned⟩ := Script.exists_of_mem_tokens h
  have hscan := hscanned.scan_eq (by simp [hname])
  rw [hname] at hscan
  have hopens : Script.opensString (t.text ++ rest) = false := by
    by_contra hopens
    rcases Script.scan_of_opensString (by simpa using hopens) with hkind | hkind <;>
      rw [hscan] at hkind <;> cases hkind
  rw [Script.scan_eq_plainScan hopens] at hscan
  have hidentifier := isName_of_plainScan hscan
  rwa [List.take_left] at hidentifier

/-! ### Names of items -/

/-- The name of the parameter that an item is. -/
def itemName? : ParameterItem → Option (List Char)
  | .plain name | .annotated name _ | .defaulted name _ | .annotatedDefaulted name _ _ => some name
  | .star | .sequence | .mapping | .slash | .tuple | .remark | .malformed => none

theorem map_name_parameter? (fallback : String) (k : ParameterKind) (item : ParameterItem) :
    (parameter? fallback k item).map (·.name.toList) = itemName? item := by
  cases item <;> simp [parameter?, itemName?]

theorem map_item_sitesFrom (before items : List ParameterItem) :
    (sitesFrom before items).map Site.item = items := by
  induction items generalizing before with
  | nil => rfl
  | cons item items ih => rw [sitesFrom, List.map_cons, ih]

/-- Each item that has a name gives a parameter of that name. -/
theorem map_name_parametersOf (fallback : String) (items : List ParameterItem) :
    (parametersOf fallback items).map (·.name.toList) = items.filterMap itemName? := by
  conv_rhs => rw [← map_item_sitesFrom [] items, List.filterMap_map]
  rw [parametersOf_eq, List.map_filterMap]
  exact List.filterMap_congr fun s _ => map_name_parameter? fallback s.kind s.item

/-! ### Items as they are written -/

/-- The name that begins an item. -/
def identifier? : Phrase → Option (List Char)
  | [] => none
  | t :: _ => if t.kind = .name then some t.text else none

/-- The text of the tuple that begins an item, if it has a default. -/
def defaultedTuple? (item : Phrase) : Option (List Char) :=
  match Phrase.group? item with
  | some (group, rest) =>
    if item.head?.any (Token.isBracket '(') ∧
        (rest.dropWhile Token.isSilent).head?.any (Token.isOp "=") then
      some (Phrase.text group)
    else none
  | none => none

/-- The name that an item gives to its parameter, if it is one. -/
def givenName? (item : Phrase) : Option (List Char) :=
  (identifier? item).or (defaultedTuple? item)

theorem itemName?_ofName (name : List Char) (ts : Phrase) :
    itemName? (ParameterItem.ofName name ts) = some name := by
  cases ts with
  | nil => rfl
  | cons t ts =>
    rw [ParameterItem.ofName]
    split_ifs
    · rw [ParameterItem.ofAnnotation]
      split <;> rfl
    · rfl
    · rfl

/-- Brackets are a parameter only if they are those of a tuple with a default. -/
theorem bind_itemName?_ofPhrase?_of_opening (hopening : t.kind = .opening) (ts : Phrase) :
    (ParameterItem.ofPhrase? (t :: ts)).bind itemName? = defaultedTuple? (t :: ts) := by
  have hop (op : String) : t.isOp op = false := by simp [Token.isOp, hopening]
  rw [ParameterItem.ofPhrase?, hop, hop, hop, hopening, defaultedTuple?, List.head?_cons,
    Option.any_some]
  cases Phrase.group? (t :: ts) with
  | none => rfl
  | some cut =>
    obtain ⟨group, rest⟩ := cut
    by_cases hround : t.isBracket '(' = true
    · cases hbehind : rest.dropWhile Token.isSilent with
      | nil => simp [hround, hbehind, ParameterItem.ofTuple, itemName?]
      | cons sign behind =>
        cases hsign : sign.isOp "=" <;>
          simp [hround, hbehind, hsign, ParameterItem.ofTuple, itemName?]
    · simp [hround, itemName?]

/-- An item has the name that begins it, or the text of a tuple with a default as its name. -/
theorem bind_itemName?_ofPhrase? (item : Phrase) :
    (ParameterItem.ofPhrase? item).bind itemName? = givenName? item := by
  rw [givenName?]
  cases item with
  | nil => rfl
  | cons t ts =>
    by_cases hname : t.kind = .name
    · simp [ParameterItem.ofPhrase?, identifier?, Token.isOp, hname, itemName?_ofName]
    · rw [identifier?, if_neg hname, Option.none_or]
      by_cases hopening : t.kind = .opening
      · exact bind_itemName?_ofPhrase?_of_opening hopening ts
      · have hgroup : Phrase.group? (t :: ts) = none := by rw [Phrase.group?, if_neg hopening]
        rw [ParameterItem.ofPhrase?, if_neg hname, hgroup, defaultedTuple?, hgroup]
        split_ifs <;> rfl

theorem filterMap_itemName?_remarks (ts : Phrase) :
    (ParameterItem.remarks ts).filterMap itemName? = [] := by
  rw [ParameterItem.remarks, List.filterMap_map, List.filterMap_eq_nil_iff]
  exact fun _ _ => rfl

/-- Comments between commas have no name. -/
theorem filterMap_itemName?_ofPart (part : Phrase) :
    (ParameterItem.ofPart part).filterMap itemName? = (givenName? part.core).toList := by
  have htoList (o : Option ParameterItem) :
      o.toList.filterMap itemName? = (o.bind itemName?).toList := by
    cases o with
    | none => rfl
    | some item => cases item <;> rfl
  rw [ParameterItem.ofPart, List.filterMap_append, List.filterMap_append,
    filterMap_itemName?_remarks, filterMap_itemName?_remarks, htoList, Phrase.core_dropWhile,
    bind_itemName?_ofPhrase?, List.nil_append, List.append_nil]

/-- The names of the parameters in a list. -/
theorem filterMap_itemName?_ofPhrase (ts : Phrase) :
    (ParameterItem.ofPhrase ts).filterMap itemName? =
      (Phrase.items ts).filterMap givenName? := by
  rw [ParameterItem.ofPhrase, List.filterMap_flatMap, Phrase.items, List.filterMap_map,
    List.filterMap_eq_flatMap_toList]
  exact List.flatMap_congr fun part _ => filterMap_itemName?_ofPart part

/-! ### Which names are identifiers -/

theorem isName_of_identifier? (hitem : item ⊆ tokens s) (h : identifier? item = some name) :
    IsName name := by
  cases item with
  | nil => cases h
  | cons t ts =>
    rw [identifier?] at h
    split_ifs at h with hname
    cases h
    exact isName_of_mem_tokens (hitem List.mem_cons_self) hname

/-- A tuple begins with its parenthesis. -/
theorem exists_of_defaultedTuple? (h : defaultedTuple? item = some name) :
    ∃ t ts tail, item = t :: ts ∧ t.kind = .opening ∧ name = '(' :: tail := by
  rw [defaultedTuple?] at h
  split at h
  next group rest hgroup =>
    split_ifs at h with hround
    cases h
    cases item with
    | nil => cases hgroup
    | cons t ts =>
      have hbracket := hround.1
      simp only [List.head?_cons, Option.any_some, Token.isBracket, Bool.and_eq_true,
        beq_iff_eq] at hbracket
      rw [Phrase.group?] at hgroup
      split_ifs at hgroup with hopening
      obtain ⟨⟨inner, after⟩, -, heq⟩ := Option.map_eq_some_iff.mp hgroup
      cases heq
      exact ⟨t, ts, _, rfl, hopening, by rw [Phrase.text, hbracket.2, List.singleton_append]⟩
  · cases h

/-- The text of a tuple is no identifier. -/
theorem not_isName_of_defaultedTuple? (h : defaultedTuple? item = some name) :
    ¬IsName name := by
  obtain ⟨-, -, tail, -, -, rfl⟩ := exists_of_defaultedTuple? h
  rintro ⟨hround, -⟩
  exact absurd hround (by decide)

/-- No name begins a tuple. -/
theorem identifier?_of_defaultedTuple? (h : defaultedTuple? item = some name) :
    identifier? item = none := by
  obtain ⟨t, ts, -, rfl, hopening, -⟩ := exists_of_defaultedTuple? h
  rw [identifier?, hopening, if_neg (by decide)]

/-- The parameters of a list have identifiers as their names if no tuple has a default. -/
theorem forall_isName_iff (hts : ts ⊆ tokens s) :
    (∀ name ∈ (Phrase.items ts).filterMap givenName?, IsName name) ↔
      ∀ item ∈ Phrase.items ts, defaultedTuple? item = none := by
  simp only [List.mem_filterMap, forall_exists_index, and_imp]
  constructor
  · intro h item hitem
    rw [Option.eq_none_iff_forall_ne_some]
    intro name hname
    refine not_isName_of_defaultedTuple? hname (h name item hitem ?_)
    rw [givenName?, identifier?_of_defaultedTuple? hname, Option.none_or, hname]
  · intro h name item hitem hname
    rw [givenName?, h item hitem, Option.or_none] at hname
    exact isName_of_identifier? (List.Subset.trans (Phrase.subset_of_mem_items hitem) hts) hname

/-- The parameters of a command are those of a list of tokens of its script. -/
theorem exists_of_mem_extract {e : Config.Extractor} {c : Command} (h : c ∈ extract e source) :
    ∃ ts ⊆ tokens source.toList,
      c.parameters = parametersOf e.fallbackType (ParameterItem.ofPhrase ts) := by
  obtain ⟨statement, hstatement, hc⟩ := List.mem_filterMap.mp h
  cases statement with
  | decorated ds d =>
    cases d with
    | classDefinition => cases hc
    | function f =>
      obtain ⟨marker, -, rfl⟩ := Option.map_eq_some_iff.mp hc
      obtain ⟨ts, hts, hparameters⟩ := Script.exists_of_mem_outline hstatement
      exact ⟨ts, hts, congrArg (parametersOf e.fallbackType) hparameters⟩
  | _ => cases hc

/-- **The names of parameters.** Those of any list in a text are the names that begin its items and
the texts of the tuples with a default among them, in their order. So they are identifiers exactly
if no tuple has a default, and exactly then all other items are passed over. -/
theorem names_parametersOf (source : String) :
    (∀ ts ⊆ tokens source.toList, ∀ fallback : String,
      let names := (parametersOf fallback (ParameterItem.ofPhrase ts)).map (·.name.toList)
      let items := Phrase.items ts
      names = items.filterMap givenName? ∧
      ((∀ name ∈ names, IsName name) ↔ ∀ item ∈ items, defaultedTuple? item = none) ∧
      (names = items.filterMap identifier? ↔ ∀ item ∈ items, defaultedTuple? item = none)) ∧
    ∀ (e : Config.Extractor), ∀ c ∈ extract e source, ∃ ts ⊆ tokens source.toList,
      c.parameters = parametersOf e.fallbackType (ParameterItem.ofPhrase ts) := by
  refine ⟨fun ts hts fallback => ?_, fun e c hc => ?_⟩
  · intro names items
    have hnames : names = items.filterMap givenName? := by
      rw [← filterMap_itemName?_ofPhrase, ← map_name_parametersOf fallback]
    refine ⟨hnames, hnames ▸ forall_isName_iff hts, fun h => ?_, fun h => ?_⟩
    · refine (forall_isName_iff hts).mp fun name hname => ?_
      rw [← hnames, h] at hname
      obtain ⟨item, hitem, hname⟩ := List.mem_filterMap.mp hname
      exact isName_of_identifier? (List.Subset.trans (Phrase.subset_of_mem_items hitem) hts) hname
    · rw [hnames]
      refine List.filterMap_congr fun item hitem => ?_
      rw [givenName?, h item hitem, Option.or_none]
  · exact exists_of_mem_extract hc

/-- A tuple without a default and what takes further arguments are passed over. -/
theorem names_parametersOf_of_tuple :
    let source := "@app.command()\ndef f(a, (b, c), d: int=1, *e, g=2, **h):\n    pass\n"
    let list : Phrase := ((tokens source.toList).drop 10).take 23
    (list ⊆ tokens source.toList ∧
      (parametersOf "str" (ParameterItem.ofPhrase list)).map (·.name.toList) =
        [['a'], ['d'], ['g']] ∧
      ∀ name ∈ (parametersOf "str" (ParameterItem.ofPhrase list)).map (·.name.toList),
        IsName name) ∧
    ∃ c ∈ extract {} source, ∃ ts ⊆ tokens source.toList,
      c.parameters = parametersOf "str" (ParameterItem.ofPhrase ts) := by
  intro source list
  have hlist : list ⊆ tokens source.toList :=
    ((List.take_sublist _ _).trans (List.drop_sublist _ _)).subset
  obtain ⟨-, hidentifier, -⟩ := (names_parametersOf source).1 list hlist "str"
  obtain ⟨c, hc⟩ := List.length_eq_one_iff.mp
    (show (extract {} source).length = 1 by decide +kernel)
  have hmem : c ∈ extract {} source := hc ▸ List.mem_singleton_self c
  exact ⟨⟨hlist, by decide +kernel, hidentifier.mpr (by decide +kernel)⟩,
    c, hmem, (names_parametersOf source).2 {} c hmem⟩

/-- A tuple with a default is a parameter, and its text stands in the wrapper as a name. -/
theorem not_isName_of_tuple :
    let source := "@app.command()\ndef f((a, b)=(1, 2)):\n    pass\n"
    (extract {} source).map (fun c => c.parameters.map (·.name)) = [["(a, b)"]] ∧
      ¬IsName "(a, b)".toList ∧
      (extract {} source).map (wrapper "script_f") =
        ["def script_f((a, b): str = (1, 2)):"] := by
  decide +kernel

end Scriptorium.Command
