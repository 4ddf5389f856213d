/-
The parameters of a list of items, and how each of them may be passed.

The reader goes through the items once: a slash changes the parameters already read, a star those
to come. What it comes to is said of each item from what stands before and behind it
(`foldl_add`). So the parameters come in the order of their kinds, and their defaults are last
among those passed by position if they are so in the source.
-/

import Mathlib.Data.List.Induction
import Scriptorium.Command.Extraction
import Scriptorium.Proofs.Command.Signature

namespace Scriptorium.Command

open Script (ParameterItem Snippet)

variable {fallback : String} {k : ParameterKind} {item : ParameterItem}
  {items before : List ParameterItem}

/-! ### Sites -/

/-- An item of a parameter list, with the items before it and behind it. -/
structure Site where
  before : List ParameterItem
  item : ParameterItem
  behind : List ParameterItem
deriving DecidableEq, Repr

/-- The items of a list at their sites, behind some other items. -/
def sitesFrom (before : List ParameterItem) : List ParameterItem → List Site
  | [] => []
  | item :: behind => ⟨before, item, behind⟩ :: sitesFrom (before ++ [item]) behind

/-- The items of a list at their sites. -/
def sites (items : List ParameterItem) : List Site :=
  sitesFrom [] items

namespace Site

/-- How a parameter may be passed: by position before a slash, wherever the stars are; else by
name behind a star, with a name or bare; else both ways. -/
def kind (s : Site) : ParameterKind :=
  if .slash ∈ s.behind then .positionalOnly
  else if .star ∈ s.before ∨ .sequence ∈ s.before then .keywordOnly
  else .positionalOrKeyword

/-- The parameter of an item that names one. -/
def parameter? (fallback : String) (s : Site) : Option Parameter :=
  Command.parameter? fallback s.kind s.item

/-- The site with one more item at the end of the list. -/
def followedBy (item : ParameterItem) (s : Site) : Site :=
  { s with behind := s.behind ++ [item] }

end Site

theorem sitesFrom_concat (before items : List ParameterItem) (item : ParameterItem) :
    sitesFrom before (items ++ [item]) =
      (sitesFrom before items).map (Site.followedBy item) ++ [⟨before ++ items, item, []⟩] := by
  induction items generalizing before with
  | nil => simp [sitesFrom]
  | cons first items ih =>
    rw [List.cons_append, sitesFrom, ih, sitesFrom, List.map_cons, List.append_assoc,
      List.singleton_append]
    rfl

theorem sites_concat (items : List ParameterItem) (item : ParameterItem) :
    sites (items ++ [item]) = (sites items).map (Site.followedBy item) ++ [⟨items, item, []⟩] :=
  sitesFrom_concat [] items item

/-- Another item at the end matters to a parameter only if it is a slash. -/
theorem Site.kind_followedBy (s : Site) :
    (s.followedBy item).kind = if item = .slash then .positionalOnly else s.kind := by
  by_cases hslash : item = .slash
  · rw [if_pos hslash, Site.kind, Site.followedBy, if_pos (by simp [hslash])]
  · rw [if_neg hslash]
    exact if_congr (by simp [Site.followedBy, Ne.symm hslash]) rfl rfl

/-! ### Parameters of items -/

/-- Only the kind of a parameter depends on the kind it is given. -/
theorem parameter?_eq_map (k' : ParameterKind) :
    parameter? fallback k item =
      (parameter? fallback k' item).map fun p => { p with kind := k } := by
  cases item <;> rfl

theorem kind_of_parameter? {p : Parameter} (h : parameter? fallback k item = some p) :
    p.kind = k := by
  rw [parameter?_eq_map .positionalOnly, Option.map_eq_some_iff] at h
  obtain ⟨q, _, rfl⟩ := h
  rfl

/-! ### One item -/

theorem any_isStarred_iff : items.any isStarred = true ↔ .star ∈ items ∨ .sequence ∈ items := by
  rw [List.any_eq_true]
  constructor
  · rintro ⟨item, hmem, hstarred⟩
    cases item with
    | star => exact .inl hmem
    | sequence => exact .inr hmem
    | _ => cases hstarred
  · rintro (hmem | hmem)
    · exact ⟨.star, hmem, rfl⟩
    · exact ⟨.sequence, hmem, rfl⟩

/-- What has been read of a list of items. -/
def collected (fallback : String) (items : List ParameterItem) : Collected where
  parameters := (sites items).filterMap (Site.parameter? fallback)
  starred := items.any isStarred

/-- A slash makes positional what stands before it. -/
theorem add_slash (fallback : String) (items : List ParameterItem) :
    (collected fallback items).add fallback .slash = collected fallback (items ++ [.slash]) := by
  have hparameters : ((sites items).filterMap (Site.parameter? fallback)).map
      (fun p => { p with kind := .positionalOnly }) =
        (sites (items ++ [.slash])).filterMap (Site.parameter? fallback) := by
    rw [sites_concat, List.filterMap_append, List.filterMap_map, List.map_filterMap]
    have hlast : [Site.mk items .slash []].filterMap (Site.parameter? fallback) = [] := rfl
    rw [hlast, List.append_nil]
    refine List.filterMap_congr fun s _ => ?_
    rw [Function.comp_apply, Site.parameter?, Site.parameter?, s.kind_followedBy, if_pos rfl]
    exact (parameter?_eq_map _).symm
  rw [collected, Collected.add, hparameters, collected, List.any_append]
  simp [isStarred]

/-- Any other item leaves what stands before it as it is. -/
theorem add_of_ne (h : item ≠ .slash) (items : List ParameterItem) :
    (collected fallback items).add fallback item = collected fallback (items ++ [item]) := by
  have hkind : (collected fallback items).kind = (Site.mk items item []).kind := by
    rw [Collected.kind, Site.kind, if_neg List.not_mem_nil]
    exact if_congr any_isStarred_iff rfl rfl
  have hadd (c : Collected) : c.add fallback item =
      ⟨c.parameters ++ (parameter? fallback c.kind item).toList, c.starred || isStarred item⟩ := by
    rw [Collected.add]
    exact h
  have hbefore : ((sites items).map (Site.followedBy item)).filterMap (Site.parameter? fallback) =
      (sites items).filterMap (Site.parameter? fallback) := by
    rw [List.filterMap_map]
    refine List.filterMap_congr fun s _ => ?_
    rw [Function.comp_apply, Site.parameter?, Site.parameter?, s.kind_followedBy, if_neg h]
    rfl
  have hlast : [Site.mk items item []].filterMap (Site.parameter? fallback) =
      (parameter? fallback (Site.mk items item []).kind item).toList := by
    rw [List.filterMap_cons, List.filterMap_nil, Site.parameter?]
    cases parameter? fallback (Site.mk items item []).kind item <;> rfl
  rw [hadd, hkind, collected, collected, sites_concat, List.filterMap_append, hbefore, hlast,
    List.any_append]
  simp

theorem add_collected (fallback : String) (items : List ParameterItem) (item : ParameterItem) :
    (collected fallback items).add fallback item = collected fallback (items ++ [item]) := by
  by_cases h : item = .slash
  · rw [h, add_slash]
  · exact add_of_ne h items

/-! ### All items -/

/-- Each item that names a parameter gives one, of the kind of its site. -/
theorem foldl_add (fallback : String) (items : List ParameterItem) :
    items.foldl (Collected.add fallback) {} = collected fallback items := by
  induction items using List.reverseRecOn with
  | nil => rfl
  | append_singleton items item ih => rw [List.foldl_concat, ih, add_collected]

theorem parametersOf_eq (fallback : String) (items : List ParameterItem) :
    parametersOf fallback items = (sites items).filterMap (Site.parameter? fallback) := by
  rw [parametersOf, foldl_add, collected]

/-! ### The order of kinds -/

/-- One site comes before another of the same list. -/
structure Site.Precedes (s t : Site) : Prop where
  before : s.before ⊆ t.before
  behind : t.behind ⊆ s.behind

theorem mem_sitesFrom {s : Site} (h : s ∈ sitesFrom before items) :
    before ⊆ s.before ∧ s.behind ⊆ items := by
  induction items generalizing before with
  | nil => cases h
  | cons item items ih =>
    rcases List.mem_cons.mp h with rfl | h
    · exact ⟨List.Subset.refl _, List.subset_cons_self _ _⟩
    · obtain ⟨hbefore, hbehind⟩ := ih h
      exact ⟨List.Subset.trans (List.subset_append_left _ _) hbefore,
        List.Subset.trans hbehind (List.subset_cons_self _ _)⟩

theorem pairwise_sitesFrom (before items : List ParameterItem) :
    (sitesFrom before items).Pairwise Site.Precedes := by
  induction items generalizing before with
  | nil => exact .nil
  | cons item items ih =>
    refine .cons (fun t ht => ?_) (ih _)
    obtain ⟨hbefore, hbehind⟩ := mem_sitesFrom ht
    exact ⟨List.Subset.trans (List.subset_append_left _ _) hbefore, hbehind⟩

/-- A slash is behind all that stands before it, and a star before all that stands behind it. -/
theorem Site.Precedes.rank_le {s t : Site} (h : s.Precedes t) :
    Signature.rank s.kind ≤ Signature.rank t.kind := by
  have hslash : .slash ∈ t.behind → .slash ∈ s.behind := fun hmem => h.behind hmem
  have hstar : .star ∈ s.before ∨ .sequence ∈ s.before →
      .star ∈ t.before ∨ .sequence ∈ t.before :=
    Or.imp (fun hmem => h.before hmem) fun hmem => h.before hmem
  unfold Site.kind
  split_ifs <;> simp_all [Signature.rank]

theorem pairwise_rank (fallback : String) (items : List ParameterItem) :
    (parametersOf fallback items).Pairwise fun p q =>
      Signature.rank p.kind ≤ Signature.rank q.kind := by
  rw [parametersOf_eq]
  refine (pairwise_sitesFrom [] items).filterMap _ fun s t hprecedes p hp q hq => ?_
  rw [kind_of_parameter? hp, kind_of_parameter? hq]
  exact hprecedes.rank_le

/-! ### Defaults -/

/-- Whether the parameter that an item names has a default. -/
def hasDefault? : ParameterItem → Option Bool
  | .plain _ | .annotated _ _ => some false
  | .defaulted _ _ | .annotatedDefaulted _ _ _ => some true
  | .star | .sequence | .mapping | .slash | .tuple | .remark | .malformed => none

/-- Which of the parameters passed by position have a default, as they are in the source. -/
def positionalDefaults (items : List ParameterItem) : List Bool :=
  ((sites items).filter (·.kind != .keywordOnly)).filterMap (hasDefault? ·.item)

/-- No parameter without a default stands behind one with a default. -/
def DefaultsLast (declared : List Bool) : Prop :=
  declared.Pairwise fun a b => a = true → b = true

instance : DecidablePred DefaultsLast := fun declared =>
  inferInstanceAs (Decidable (declared.Pairwise _))

theorem isDeclared_defaultOf (expression : Snippet) : (defaultOf expression).isDeclared = true := by
  unfold defaultOf
  split
  · split <;> rfl
  · rfl

theorem map_isDeclared_parameter? :
    (parameter? fallback k item).map (·.default.isDeclared) = hasDefault? item := by
  cases item with
  | defaulted target default => exact congrArg some (isDeclared_defaultOf default)
  | annotatedDefaulted name type default => exact congrArg some (isDeclared_defaultOf default)
  | _ => rfl

/-- The parameters passed by position have defaults where the source gives them. -/
theorem map_isDeclared_positional (fallback : String) (items : List ParameterItem) :
    ((parametersOf fallback items).filter (·.kind != .keywordOnly)).map (·.default.isDeclared) =
      positionalDefaults items := by
  rw [parametersOf_eq, positionalDefaults, List.filter_filterMap, List.map_filterMap,
    List.filterMap_filter]
  refine List.filterMap_congr fun s _ => ?_
  rw [← map_isDeclared_parameter? (k := s.kind), Site.parameter?]
  cases hp : Command.parameter? fallback s.kind s.item with
  | none => simp
  | some p =>
    rw [Option.filter_some, kind_of_parameter? hp]
    split <;> rfl

/-- **The parameters of a command.** They are those that the items name, in their order, each of the
kind of its site; their kinds are in order; and if defaults are last among the parameters passed by
position in the source, they are so among those of the command. -/
theorem parametersOf_sites (fallback : String) (items : List ParameterItem) :
    parametersOf fallback items = (sites items).filterMap (Site.parameter? fallback) ∧
      ((parametersOf fallback items).Pairwise fun p q =>
        Signature.rank p.kind ≤ Signature.rank q.kind) ∧
      (DefaultsLast (positionalDefaults items) →
        DefaultsLast (((parametersOf fallback items).filter (·.kind != .keywordOnly)).map
          (·.default.isDeclared))) := by
  refine ⟨parametersOf_eq fallback items, pairwise_rank fallback items, fun hlast => ?_⟩
  rwa [map_isDeclared_positional]

/-- A slash behind a bare star: before it all is positional, behind it only named. -/
theorem parametersOf_sites_of_misplaced :
    let one : Snippet := ⟨['1'], true⟩
    let int : Snippet := ⟨['i', 'n', 't'], true⟩
    let items : List ParameterItem := [.annotated ['a'] int, .defaulted ['b'] one, .star, .tuple,
      .annotatedDefaulted ['c'] int one, .slash, .remark, .plain ['d'], .annotated ['e'] int,
      .mapping]
    DefaultsLast (positionalDefaults items) ∧
      DefaultsLast (((parametersOf "str" items).filter (·.kind != .keywordOnly)).map
        (·.default.isDeclared)) ∧
      (parametersOf "str" items).map (fun p => (p.name, p.type, p.kind)) =
        [("a", "int", .positionalOnly), ("b", "str", .positionalOnly),
          ("c", "int", .positionalOnly), ("d", "str", .keywordOnly),
          ("e", "int", .keywordOnly)] := by
  intro one int items
  have hlast : DefaultsLast (positionalDefaults items) := by decide
  exact ⟨hlast, (parametersOf_sites "str" items).2.2 hlast, by decide +kernel⟩

end Scriptorium.Command
