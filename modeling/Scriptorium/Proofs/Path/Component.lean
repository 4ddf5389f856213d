/-
The components of a path, and which paths are reported alike below a root.

Only the first piece of a path can leave a component without a text, a slash or a lone point; all
others are names, and a text made of names has these names as its components (`body_intercalate`).
So the text of a path below a root stands for the names that are left of it, and two paths have the
same text exactly when the same names are left (`relativeOf_eq_iff`).
-/

import Scriptorium.Path
import Scriptorium.Proofs.Text.Line

namespace Scriptorium.Path

variable {c : Component} {cs root rest : List Component} {p q path piece : List Char}

/-! ### The beginning of a path and its names -/

/-- What a path begins with: a slash, a lone point, or neither. -/
def lead? (path : List Char) : Option Component :=
  Component.ofFirst? (Text.splitAt '/' path) path

/-- The components of a path behind its beginning. -/
def body (path : List Char) : List Component :=
  (Text.splitAt '/' path).filterMap Component.ofPiece?

theorem components_eq (path : List Char) :
    components path = (lead? path).toList ++ body path := rfl

/-- A component that a piece of a path leaves. -/
def Component.IsNamed (c : Component) : Prop :=
  ∃ name, '/' ∉ name ∧ Component.ofPiece? name = some c

theorem Component.text?_of_ofPiece? (h : Component.ofPiece? piece = some c) :
    c.text? = some piece := by
  rw [Component.ofPiece?] at h
  split at h
  · cases h
  · split at h
    · rename_i hparent
      cases h
      rw [hparent]
      rfl
    · cases h
      rfl

theorem Component.IsNamed.isSome (h : c.IsNamed) : c.text?.isSome = true := by
  obtain ⟨name, _, hname⟩ := h
  rw [Component.text?_of_ofPiece? hname]
  rfl

theorem filter_of_isNamed (h : ∀ c ∈ cs, c.IsNamed) :
    cs.filter (fun c => c.text?.isSome) = cs :=
  List.filter_eq_self.mpr fun c hc => (h c hc).isSome

theorem isNamed_of_mem_body (h : c ∈ body path) : c.IsNamed := by
  obtain ⟨piece, hpiece, hc⟩ := List.mem_filterMap.mp h
  exact ⟨piece, Text.not_mem_of_mem_splitAt hpiece, hc⟩

/-- What a path begins with is no name. -/
theorem text?_of_lead? (h : lead? path = some c) : c.text? = none := by
  rw [lead?, Component.ofFirst?] at h
  split at h
  · cases h
    rfl
  · split at h
    · cases h
      rfl
    · cases h

theorem mem_body_of_mem_components (h : c ∈ components path) (hname : c.text?.isSome = true) :
    c ∈ body path := by
  rw [components_eq, List.mem_append, Option.mem_toList] at h
  rcases h with h | h
  · rw [text?_of_lead? h] at hname
    cases hname
  · exact h

/-! ### Behind a slash -/

theorem body_append_sep (q r : List Char) : body (q ++ '/' :: r) = body q ++ body r := by
  rw [body, Text.splitAt_append_sep, List.filterMap_append]
  rfl

theorem lead?_append_sep (h : q ≠ []) (r : List Char) : lead? (q ++ '/' :: r) = lead? q := by
  have hpieces : (Text.splitAt '/' (q ++ '/' :: r)).head? = (Text.splitAt '/' q).head? := by
    rw [Text.splitAt_append_sep, List.head?_append_of_ne_nil _ (Text.splitAt_ne_nil '/' q)]
  rw [lead?, lead?, Component.ofFirst?, Component.ofFirst?, hpieces,
    List.head?_append_of_ne_nil q h]

theorem components_append_sep (h : q ≠ []) (r : List Char) :
    components (q ++ '/' :: r) = components q ++ body r := by
  rw [components_eq, components_eq, lead?_append_sep h, body_append_sep, List.append_assoc]

theorem components_sep (r : List Char) : components ('/' :: r) = .root :: body r := rfl

theorem head?_ne_slash (h : [] ∉ Text.splitAt '/' path) : path.head? ≠ some '/' := by
  intro hhead
  obtain ⟨s, rfl⟩ := List.head?_eq_some_iff.mp hhead
  exact h (by simp [Text.splitAt])

/-- A path begins with a name if all its pieces are names. -/
theorem lead?_eq_none (h : ∀ piece ∈ Text.splitAt '/' path, piece ≠ [] ∧ piece ≠ ['.']) :
    lead? path = none := by
  have hcurrent : (Text.splitAt '/' path).head? ≠ some ['.'] :=
    fun hfirst => (h _ (List.mem_of_head? hfirst)).2 rfl
  rw [lead?, Component.ofFirst?, if_neg (head?_ne_slash fun hmem => (h _ hmem).1 rfl),
    if_neg hcurrent]

/-- A path that begins with a name adds its names behind a directory. -/
theorem components_join (h : lead? q = none) (directory : List Char) :
    components (join directory q) = components directory ++ components q := by
  have hq : components q = body q := by
    rw [components_eq, h]
    rfl
  rw [hq, join]
  split
  · rename_i hslash
    rcases hslash with rfl | hlast
    · exact hq
    · obtain ⟨front, rfl⟩ := List.getLast?_eq_some_iff.mp hlast
      rw [List.append_assoc, List.singleton_append]
      cases front with
      | nil => exact components_sep q
      | cons c front =>
        have hfront := List.cons_ne_nil c front
        rw [components_append_sep hfront, components_append_sep hfront, List.append_assoc]
        rfl
  · rename_i hne
    exact components_append_sep (not_or.mp hne).1 q

/-- A text made of names has them as its components. -/
theorem body_intercalate (h : ∀ c ∈ cs, c.IsNamed) :
    body (['/'].intercalate (cs.filterMap Component.text?)) = cs := by
  have hnames : ∃ names : List (List Char), cs.filterMap Component.text? = names ∧
      (∀ name ∈ names, '/' ∉ name) ∧ names.filterMap Component.ofPiece? = cs := by
    induction cs with
    | nil => exact ⟨[], rfl, by simp, rfl⟩
    | cons c cs ih =>
      rw [List.forall_mem_cons] at h
      obtain ⟨⟨name, hslash, hname⟩, hcs⟩ := h
      obtain ⟨names, htexts, hslashes, hnames⟩ := ih hcs
      refine ⟨name :: names, ?_, List.forall_mem_cons.mpr ⟨hslash, hslashes⟩, ?_⟩
      · rw [List.filterMap_cons_some (Component.text?_of_ofPiece? hname), htexts]
      · rw [List.filterMap_cons_some hname, hnames]
  obtain ⟨names, htexts, hslashes, hnames⟩ := hnames
  rw [htexts, body]
  cases names with
  | nil =>
    rw [← hnames]
    rfl
  | cons name names => rw [Text.splitAt_intercalate (List.cons_ne_nil name names) hslashes, hnames]

/-! ### The name of the file -/

theorem fileNameOf?_concat (cs : List Component) (name : List Char) :
    fileNameOf? (cs ++ [.normal name]) = some name := by
  rw [fileNameOf?, List.getLast?_concat]
  rfl

theorem parentOf?_concat (cs : List Component) (name : List Char) :
    parentOf? (cs ++ [.normal name]) = some cs := by
  rw [parentOf?, List.getLast?_concat, List.dropLast_concat]

theorem stem?_of_concat {name : List Char} (h : components path = cs ++ [.normal name]) :
    stem? path = some (splitName name).1 := by
  rw [stem?, fileName?, h, fileNameOf?_concat, Option.map_some]

/-- The name of the file is the last of the names, if that is no step back. -/
theorem fileName?_eq (path : List Char) :
    fileName? path = (body path).getLast?.bind Component.name? := by
  rw [fileName?, fileNameOf?, components_eq]
  rcases List.eq_nil_or_concat (body path) with hbody | ⟨names, c, hbody⟩
  · rw [hbody, List.append_nil]
    cases hlead : lead? path with
    | none => rfl
    | some c =>
      have hname := text?_of_lead? hlead
      cases c with
      | root => rfl
      | current => rfl
      | parent => cases hname
      | normal name => cases hname
  · rw [hbody, List.concat_eq_append, ← List.append_assoc, List.getLast?_concat,
      List.getLast?_concat]

/-- There is no slash in the name of a file. -/
theorem slash_not_mem_fileName {name : List Char} (h : fileName? path = some name) :
    '/' ∉ name := by
  rw [fileName?_eq] at h
  obtain ⟨c, hc, hname⟩ := Option.bind_eq_some_iff.mp h
  obtain ⟨piece, hslash, hpiece⟩ := isNamed_of_mem_body (List.mem_of_getLast? hc)
  cases c with
  | normal _ =>
    cases hname
    have htext := Component.text?_of_ofPiece? hpiece
    cases htext
    exact hslash
  | _ => cases hname

/-! ### Below a root -/

theorem strip?_eq_some_iff : strip? root cs = some rest ↔ cs = root ++ rest := by
  induction root generalizing cs with
  | nil => simp [strip?, eq_comm]
  | cons b root ih =>
    cases cs with
    | nil => simp [strip?]
    | cons c cs =>
      by_cases hc : b = c
      · subst hc
        simp [strip?, ih]
      · simp [strip?, hc, Ne.symm hc]

theorem relativeOf_append (root rest : List Component) :
    relativeOf root (root ++ rest) = ['/'].intercalate (rest.filterMap Component.text?) := by
  have hstrip : strip? root (root ++ rest) = some rest := strip?_eq_some_iff.mpr rfl
  rw [relativeOf, hstrip, Option.getD_some]

/-- The names that are left of a path below a root. -/
def below (root : List Component) (path : List Char) : List Component :=
  ((strip? root (components path)).getD (components path)).filter fun c => c.text?.isSome

/-- A path of which all names are left: the root is empty, or the path lies elsewhere. -/
def Outside (root : List Component) (path : List Char) : Prop :=
  root = [] ∨ ¬root <+: components path

instance (root : List Component) (path : List Char) : Decidable (Outside root path) :=
  inferInstanceAs (Decidable (_ ∨ _))

theorem filter_components (path : List Char) :
    (components path).filter (fun c => c.text?.isSome) = body path := by
  have hlead : (lead? path).toList.filter (fun c => c.text?.isSome) = [] := by
    rw [List.filter_eq_nil_iff]
    intro c hc
    rw [text?_of_lead? (Option.mem_toList.mp hc)]
    exact Bool.false_ne_true
  rw [components_eq, List.filter_append, hlead, filter_of_isNamed fun c => isNamed_of_mem_body,
    List.nil_append]

theorem below_of_outside (h : Outside root path) : below root path = body path := by
  rcases h with rfl | h
  · exact filter_components path
  · have hnone : strip? root (components path) = none := by
      rw [Option.eq_none_iff_forall_ne_some]
      intro rest hrest
      exact h ⟨rest, (strip?_eq_some_iff.mp hrest).symm⟩
    rw [below, hnone]
    exact filter_components path

/-- Behind a root that is not empty there are only names. -/
theorem below_of_not_outside (h : ¬Outside root path) :
    components path = root ++ below root path := by
  rw [Outside, not_or, not_not] at h
  obtain ⟨hroot, rest, hrest⟩ := h
  have hsuffix : rest <:+ body path := by
    cases root with
    | nil => exact absurd rfl hroot
    | cons b root =>
      rw [components_eq] at hrest
      cases hlead : lead? path with
      | none =>
        rw [hlead] at hrest
        exact ⟨b :: root, hrest⟩
      | some c =>
        rw [hlead] at hrest
        exact ⟨root, (List.cons.inj hrest).2⟩
  have hnamed : ∀ c ∈ rest, c.IsNamed := by
    intro c hc
    exact isNamed_of_mem_body (hsuffix.subset hc)
  rw [below, strip?_eq_some_iff.mpr hrest.symm, Option.getD_some, filter_of_isNamed hnamed, hrest]

theorem isNamed_of_mem_below (h : c ∈ below root path) : c.IsNamed := by
  by_cases hroot : Outside root path
  · rw [below_of_outside hroot] at h
    exact isNamed_of_mem_body h
  · obtain ⟨_, hname⟩ := List.mem_filter.mp h
    have hmem : c ∈ components path := by
      rw [below_of_not_outside hroot]
      exact List.mem_append_right root h
    exact isNamed_of_mem_body (mem_body_of_mem_components hmem hname)

theorem relativeOf_eq (root : List Component) (path : List Char) :
    relativeOf root (components path) =
      ['/'].intercalate ((below root path).filterMap Component.text?) := by
  have hfilter (l : List Component) :
      (l.filter fun c => c.text?.isSome).filterMap Component.text? =
        l.filterMap Component.text? := by
    rw [List.filterMap_filter]
    congr 1
    funext c
    cases c.text? <;> rfl
  rw [relativeOf, below, hfilter]

/-- The text of a path below a root has the names that are left as its components. -/
theorem body_relativeOf (root : List Component) (path : List Char) :
    body (relativeOf root (components path)) = below root path := by
  rw [relativeOf_eq, body_intercalate fun c hc => isNamed_of_mem_below hc]

theorem relativeOf_eq_iff : relativeOf root (components p) = relativeOf root (components q) ↔
    below root p = below root q := by
  constructor
  · intro h
    rw [← body_relativeOf, h, body_relativeOf]
  · intro h
    rw [relativeOf_eq, relativeOf_eq, h]

/-! ### Paths that are reported alike -/

/-- Two paths that are reported alike below a root: with all their names, which are the same, or one
below the root and the other elsewhere with the same names as the first has behind the root. -/
inductive Twins (root : List Component) (p q : List Char) : Prop where
  | outside : Outside root p → Outside root q → body p = body q → Twins root p q
  | inside : ¬Outside root p → Outside root q → components p = root ++ body q → Twins root p q

theorem twins_iff : Twins root p q ↔ Outside root q ∧
    if Outside root p then body p = body q else components p = root ++ body q := by
  constructor
  · intro h
    cases h with
    | outside hp hq heq => exact ⟨hq, by rwa [if_pos hp]⟩
    | inside hp hq heq => exact ⟨hq, by rwa [if_neg hp]⟩
  · rintro ⟨hq, h⟩
    split at h
    · rename_i hp
      exact .outside hp hq h
    · rename_i hp
      exact .inside hp hq h

instance (root : List Component) (p q : List Char) : Decidable (Twins root p q) :=
  decidable_of_iff _ twins_iff.symm

theorem Twins.below_eq (h : Twins root p q) : below root p = below root q := by
  cases h with
  | outside hp hq heq => rw [below_of_outside hp, below_of_outside hq, heq]
  | inside hp hq heq =>
    rw [below_of_outside hq]
    exact List.append_cancel_left ((below_of_not_outside hp).symm.trans heq)

/-- Different paths are reported alike only if they are twins. -/
theorem twins_of_below_eq (hne : components p ≠ components q) (h : below root p = below root q) :
    Twins root p q ∨ Twins root q p := by
  by_cases hp : Outside root p
  · by_cases hq : Outside root q
    · rw [below_of_outside hp, below_of_outside hq] at h
      exact .inl (.outside hp hq h)
    · rw [below_of_outside hp] at h
      exact .inr (.inside hq hp (by rw [h, ← below_of_not_outside hq]))
  · by_cases hq : Outside root q
    · rw [below_of_outside hq] at h
      exact .inl (.inside hp hq (by rw [← h, ← below_of_not_outside hp]))
    · refine absurd ?_ hne
      rw [below_of_not_outside hp, below_of_not_outside hq, h]

end Scriptorium.Path
