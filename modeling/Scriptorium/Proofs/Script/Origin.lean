/-
Where the tokens of parameter lists come from.

All that is cut out of a script, its lines, statements and parameter lists, consists of tokens of
the script (`exists_of_mem_outline`), so what holds of every token of a text holds there.
-/

import Scriptorium.Proofs.Script.Lexeme
import Scriptorium.Script.Outline

namespace Scriptorium.Script

variable {t : Token} {ts part group rest head line : Phrase} {lines : List Phrase} {f : Function}

/-! ### Cuts of a phrase -/

namespace Phrase

theorem core_subset (ts : Phrase) : core ts ⊆ ts := by
  obtain ⟨before, after, hts, -, -⟩ := exists_core_append ts
  intro t ht
  rw [hts]
  exact List.mem_append_left _ (List.mem_append_right _ ht)

theorem subset_of_mem_splitFrom {p : Token → Bool} {n : Nesting} (h : part ∈ splitFrom p n ts) :
    part ⊆ ts := by
  induction ts generalizing n part with
  | nil =>
    rw [List.mem_singleton.mp h]
    exact List.nil_subset _
  | cons t ts ih =>
    have htail {part : Phrase} {n : Nesting} (h : part ∈ splitFrom p n ts) : part ⊆ t :: ts :=
      List.subset_cons_of_subset t (ih h)
    rw [splitFrom] at h
    split at h
    · rcases List.mem_cons.mp h with rfl | h
      · exact List.nil_subset _
      · exact htail h
    · cases hrest : splitFrom p (n.after t) ts with
      | nil =>
        rw [hrest] at h
        rw [List.mem_singleton.mp h]
        simp
      | cons first parts =>
        rw [hrest] at h
        rcases List.mem_cons.mp h with rfl | h
        · exact List.cons_subset_cons t (ih (hrest ▸ List.mem_cons_self))
        · exact htail (hrest ▸ List.mem_cons_of_mem first h)

/-- The items between commas are parts of the phrase. -/
theorem subset_of_mem_items (h : part ∈ items ts) : part ⊆ ts := by
  obtain ⟨uncut, huncut, rfl⟩ := List.mem_map.mp h
  exact List.Subset.trans (core_subset uncut) (subset_of_mem_splitFrom huncut)

theorem subset_of_group? (h : group? ts = some (group, rest)) : group ⊆ ts ∧ rest ⊆ ts := by
  rw [← append_of_group? h]
  exact ⟨List.subset_append_left _ _, List.subset_append_right _ _⟩

theorem inside_subset (group : Phrase) : inside group ⊆ group :=
  ((List.dropLast_sublist _).trans (List.tail_sublist group)).subset

end Phrase

/-! ### Lines -/

theorem subset_of_mem_linesFrom {depth : Nat} (h : line ∈ linesFrom depth ts) : line ⊆ ts := by
  induction ts generalizing depth line with
  | nil =>
    rw [List.mem_singleton.mp h]
    exact List.nil_subset _
  | cons t ts ih =>
    have htail {line : Phrase} {depth : Nat} (h : line ∈ linesFrom depth ts) : line ⊆ t :: ts :=
      List.subset_cons_of_subset t (ih h)
    rw [linesFrom] at h
    split at h
    · rcases List.mem_cons.mp h with rfl | h
      · exact List.nil_subset _
      · exact htail h
    · dsimp only at h
      split at h
      · rw [List.mem_singleton.mp h]
        simp
      next first rest hlines =>
        rcases List.mem_cons.mp h with rfl | h
        · exact List.cons_subset_cons t (ih (hlines ▸ List.mem_cons_self))
        · exact htail (hlines ▸ List.mem_cons_of_mem first h)

/-! ### Definitions -/

/-- What follows the name of a function and its type parameters. -/
theorem subset_behindTypes (rest : Phrase) :
    (match Phrase.group? rest with
      | some (group, after) => if group.head?.any (Token.isBracket '[') then after else rest
      | none => rest) ⊆ rest := by
  split
  next group after hgroup =>
    split
    · exact (Phrase.subset_of_group? hgroup).2
    · exact List.Subset.refl _
  · exact List.Subset.refl _

/-- The parameters of a function are written by tokens of its head. -/
theorem exists_of_functionOf? (h : functionOf? head lines = some f) :
    ∃ ts ⊆ head, f.parameters = ParameterItem.ofPhrase ts := by
  cases head with
  | nil => cases h
  | cons name rest =>
    rw [functionOf?] at h
    have hrest := subset_behindTypes rest
    dsimp only at h
    split at h
    · cases h
    next group after hgroup =>
      split at h
      · cases h
        have hgroup := List.Subset.trans (Phrase.subset_of_group? hgroup).1 hrest
        exact ⟨_, List.subset_cons_of_subset name
          (List.Subset.trans (Phrase.inside_subset group) hgroup), rfl⟩
      · cases h

theorem exists_of_definition? (h : definition? line lines = some (.function f)) :
    ∃ ts ⊆ line, f.parameters = ParameterItem.ofPhrase ts := by
  have hfunction {head : Phrase} (hhead : head ⊆ line)
      (h : (functionOf? head lines).map Definition.function = some (.function f)) :
      ∃ ts ⊆ line, f.parameters = ParameterItem.ofPhrase ts := by
    obtain ⟨g, hg, heq⟩ := Option.map_eq_some_iff.mp h
    cases heq
    obtain ⟨ts, hts, hparameters⟩ := exists_of_functionOf? hg
    exact ⟨ts, List.Subset.trans hts hhead, hparameters⟩
  cases line with
  | nil => cases h
  | cons t rest =>
    rw [definition?] at h
    split_ifs at h
    · cases h
    · exact hfunction (List.subset_cons_self t rest) h
    · exact hfunction (List.subset_cons_of_subset t (List.tail_sublist rest).subset) h

/-! ### Scripts -/

/-- The definition of a statement is one that its line begins. -/
theorem definition?_of_statementOf {ds ds' : List Decorator} {d : Definition}
    (h : .decorated ds' d = statementOf ds line lines) : definition? line lines = some d := by
  rw [statementOf] at h
  split at h
  next d' hdefinition =>
    split at h
    · cases h
    · cases h
      exact hdefinition
  · cases h

/-- A decorated function is written by one of the lines. -/
theorem exists_of_mem_statementsOf {ds ds' : List Decorator}
    (h : .decorated ds' (.function f) ∈ statementsOf ds lines) :
    ∃ line ∈ lines, ∃ ts ⊆ line, f.parameters = ParameterItem.ofPhrase ts := by
  fun_induction statementsOf ds lines with
  | case1 => cases h
  | case2 ds rest ih =>
    obtain ⟨line, hline, hwritten⟩ := ih h
    exact ⟨line, List.mem_cons_of_mem _ hline, hwritten⟩
  | case3 ds rest t ts hremark ih =>
    have h : .decorated ds' (.function f) ∈ statementsOf ds rest := by
      rcases List.mem_append.mp h with h | h
      · split at h <;> simp at h
      · exact h
    obtain ⟨line, hline, hwritten⟩ := ih h
    exact ⟨line, List.mem_cons_of_mem _ hline, hwritten⟩
  | case4 ds rest t ts hremark hsign hcode ih =>
    obtain ⟨line, hline, hwritten⟩ := ih h
    exact ⟨line, List.mem_cons_of_mem _ hline, hwritten⟩
  | case5 ds rest t ts hremark hsign hcode ih =>
    obtain ⟨line, hline, hwritten⟩ := ih ((List.mem_cons.mp h).resolve_left nofun)
    have hrest := (List.tail_sublist _).trans (List.dropWhile_sublist (!isCode ·) (l := rest))
    exact ⟨line, List.mem_cons_of_mem _ (hrest.subset hline), hwritten⟩
  | case6 ds rest t ts hremark hsign ih =>
    rcases List.mem_cons.mp h with h | h
    · exact ⟨t :: ts, List.mem_cons_self, exists_of_definition? (definition?_of_statementOf h)⟩
    · obtain ⟨line, hline, hwritten⟩ := ih h
      exact ⟨line, List.mem_cons_of_mem _ ((dropBody_sublist _ rest).subset hline), hwritten⟩

/-- The parameters of a decorated function of a script are written by tokens of the script. -/
theorem exists_of_mem_outline {source : String} {ds : List Decorator}
    (h : .decorated ds (.function f) ∈ outline source) :
    ∃ ts ⊆ tokens source.toList, f.parameters = ParameterItem.ofPhrase ts := by
  obtain ⟨line, hline, ts, hts, hparameters⟩ := exists_of_mem_statementsOf h
  exact ⟨ts, List.Subset.trans hts (subset_of_mem_linesFrom hline), hparameters⟩

end Scriptorium.Script
