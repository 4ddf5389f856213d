/-
Chains: operands with members, calls and indices behind them.

A phrase is read as a chain from the left, while a decorator is told by what stands at the right end
of its chain. Both agree: a decorator is the call of a member exactly if its phrase is a chain, a
point, a name and a group in parentheses (`ofPhrase_eq_memberCall_iff`).
-/

import Scriptorium.Proofs.Text.Cut
import Scriptorium.Script.Decorator
import Mathlib.Data.List.Basic

namespace Scriptorium.Script

/-! ### Groups -/

namespace Phrase

variable {depth : Nat} {ts us p rest group : Phrase}

theorem closeFrom_append (h : closeFrom depth ts = some (p, rest)) (us : Phrase) :
    closeFrom depth (ts ++ us) = some (p, rest ++ us) := by
  induction ts generalizing depth p with
  | nil => cases h
  | cons t ts ih =>
    rw [List.cons_append]
    unfold closeFrom at h ⊢
    split at h
    · cases h
      rfl
    all_goals
      obtain ⟨⟨q, r⟩, hq, heq⟩ := Option.map_eq_some_iff.1 h
      cases heq
      simp [ih hq]

/-- What closes a bracket closes it without what follows. -/
theorem closeFrom_self (h : closeFrom depth ts = some (p, rest)) :
    closeFrom depth p = some (p, []) := by
  induction ts generalizing depth p with
  | nil => cases h
  | cons t ts ih =>
    unfold closeFrom at h
    split at h
    · rename_i hkind
      cases h
      simp [closeFrom, hkind]
    all_goals
      obtain ⟨⟨q, r⟩, hq, heq⟩ := Option.map_eq_some_iff.1 h
      cases heq
      simp_all [closeFrom]

/-- A phrase that is one group. -/
def IsGroup (p : Phrase) : Prop :=
  group? p = some (p, [])

instance : DecidablePred IsGroup := fun _ => inferInstanceAs (Decidable (_ = _))

theorem group?_append (h : group? ts = some (p, rest)) (us : Phrase) :
    group? (ts ++ us) = some (p, rest ++ us) := by
  cases ts with
  | nil => cases h
  | cons t ts =>
    rw [List.cons_append]
    simp only [group?] at h ⊢
    split at h
    · rename_i hkind
      obtain ⟨⟨q, r⟩, hq, heq⟩ := Option.map_eq_some_iff.1 h
      cases heq
      rw [if_pos hkind, closeFrom_append hq]
      rfl
    · cases h

theorem isGroup_of_group? (h : group? ts = some (p, rest)) : IsGroup p := by
  cases ts with
  | nil => cases h
  | cons t ts =>
    simp only [group?] at h
    split at h
    · rename_i hkind
      obtain ⟨⟨q, r⟩, hq, heq⟩ := Option.map_eq_some_iff.1 h
      cases heq
      rw [IsGroup, group?, if_pos hkind, closeFrom_self hq]
      rfl
    · cases h

theorem IsGroup.group?_append (h : IsGroup group) (us : Phrase) :
    group? (group ++ us) = some (group, us) :=
  Phrase.group?_append h us

theorem IsGroup.ne_nil (h : IsGroup group) : group ≠ [] := by
  rintro rfl
  cases h

/-- A group begins with the bracket that opens it. -/
theorem IsGroup.exists_cons (h : IsGroup group) :
    ∃ t ts, group = t :: ts ∧ t.kind = .opening := by
  obtain ⟨t, ts, rfl⟩ := List.exists_cons_of_ne_nil h.ne_nil
  refine ⟨t, ts, rfl, ?_⟩
  by_contra hkind
  rw [IsGroup, group?, if_neg hkind] at h
  cases h

theorem head?_of_group? {t : Token} (h : group? (t :: ts) = some (group, rest)) :
    group.head? = some t := by
  obtain ⟨u, us, rfl, -⟩ := (isGroup_of_group? h).exists_cons
  have htext := append_of_group? h
  rw [List.cons_append, List.cons.injEq] at htext
  rw [htext.1, List.head?_cons]

end Phrase

/-! ### Links -/

variable {ts : Phrase} {l : Link × Phrase} {ls : List (Link × Phrase)}

theorem kind_of_isOp {op : String} {t : Token} (h : t.isOp op = true) : t.kind = .operator := by
  simp only [Token.isOp, Bool.and_eq_true, beq_iff_eq] at h
  exact h.1

/-- A link as it is written. -/
inductive IsLink : Link × Phrase → Prop
  | member {point name : Token} : point.isOp "." = true → name.kind = .name →
      IsLink (.member name.text, [point, name])
  | call {group : Phrase} : Phrase.IsGroup group → group.head?.any (Token.isBracket '(') = true →
      IsLink (.call (argumentsOf (Phrase.inside group)), group)
  | index {group : Phrase} : Phrase.IsGroup group → group.head?.any (Token.isBracket '[') = true →
      IsLink (.index, group)

theorem links?_nil : links? [] = some [] := by
  rw [links?]

theorem links?_group {group : Phrase} (h : Phrase.IsGroup group) (ts : Phrase) :
    links? (group ++ ts) =
      if group.head?.any (Token.isBracket '(') then
        (links? ts).map ((.call (argumentsOf (Phrase.inside group)), group) :: ·)
      else if group.head?.any (Token.isBracket '[') then (links? ts).map ((.index, group) :: ·)
      else none := by
  have hgroup := h.group?_append ts
  obtain ⟨t, us, rfl, hkind⟩ := h.exists_cons
  have hpoint : t.isOp "." = false := by simp [Token.isOp, hkind]
  rw [List.cons_append] at hgroup ⊢
  rw [links?.eq_def]
  simp only [hpoint, Bool.false_eq_true, if_false]
  split
  · rename_i hnone
    rw [hgroup] at hnone
    cases hnone
  · rename_i hsome
    rw [hgroup] at hsome
    cases hsome
    rfl

theorem IsLink.links?_append (h : IsLink l) (ts : Phrase) :
    links? (l.2 ++ ts) = (links? ts).map (l :: ·) := by
  cases h with
  | member hpoint hname => simp [links?, hpoint, hname]
  | call hgroup hparenthesis => rw [links?_group hgroup, if_pos hparenthesis]
  | @index group hgroup hbracket =>
    have hparenthesis : ¬ group.head?.any (Token.isBracket '(') = true := by
      obtain ⟨t, us, rfl, -⟩ := hgroup.exists_cons
      simp only [List.head?_cons, Option.any_some, Token.isBracket, Bool.and_eq_true,
        beq_iff_eq] at hbracket ⊢
      simp [hbracket.2]
    rw [links?_group hgroup, if_neg hparenthesis, if_pos hbracket]

/-- A phrase is read as links exactly if it is written as them. -/
theorem links?_eq_some_iff :
    links? ts = some ls ↔ ts = ls.flatMap Prod.snd ∧ ∀ l ∈ ls, IsLink l := by
  constructor
  · intro h
    fun_induction links? ts generalizing ls with
    | case1 => cases h; simp
    | case2 point hpoint name rest hname ih =>
      obtain ⟨ls', hls', rfl⟩ := Option.map_eq_some_iff.mp h
      obtain ⟨rfl, hlinks⟩ := ih hls'
      exact ⟨rfl, List.forall_mem_cons.mpr ⟨.member hpoint hname, hlinks⟩⟩
    | case6 t ts hpoint group after hgroup hparenthesis ih =>
      obtain ⟨ls', hls', rfl⟩ := Option.map_eq_some_iff.mp h
      obtain ⟨rfl, hlinks⟩ := ih hls'
      have htext := Phrase.append_of_group? hgroup
      have hlink := Phrase.isGroup_of_group? hgroup
      refine ⟨htext.symm, List.forall_mem_cons.mpr ⟨.call hlink ?_, hlinks⟩⟩
      rwa [Phrase.head?_of_group? hgroup]
    | case7 t ts hpoint group after hgroup _ hbracket ih =>
      obtain ⟨ls', hls', rfl⟩ := Option.map_eq_some_iff.mp h
      obtain ⟨rfl, hlinks⟩ := ih hls'
      have htext := Phrase.append_of_group? hgroup
      have hlink := Phrase.isGroup_of_group? hgroup
      refine ⟨htext.symm, List.forall_mem_cons.mpr ⟨.index hlink ?_, hlinks⟩⟩
      rwa [Phrase.head?_of_group? hgroup]
    | case3 | case4 | case5 | case8 => cases h
  · rintro ⟨rfl, h⟩
    induction ls with
    | nil => exact links?_nil
    | cons l ls ih =>
      rw [List.forall_mem_cons] at h
      rw [List.flatMap_cons, h.1.links?_append, ih h.2]
      rfl

/-! ### Operands -/

theorem append_of_operand? {operand behind : Phrase} (h : operand? ts = some (operand, behind)) :
    operand ++ behind = ts := by
  cases ts with
  | nil => cases h
  | cons t ts =>
    simp only [operand?] at h
    split at h
    case h_1 =>
      split_ifs at h
      cases h
      rfl
    case h_2 => cases h; rfl
    case h_3 =>
      split_ifs at h
      cases h
      rfl
    case h_4 =>
      cases h
      exact List.takeWhile_append_dropWhile
    case h_5 => exact Phrase.append_of_group? h
    case h_6 => cases h

/-- A point does not belong to the operand before it. -/
theorem operand?_append_point {p operand behind rest : Phrase} {point : Token}
    (hpoint : point.isOp "." = true) :
    operand? (p ++ point :: rest) = some (operand, behind ++ point :: rest) ↔
      operand? p = some (operand, behind) := by
  have hkind := kind_of_isOp hpoint
  cases p with
  | nil =>
    have hdots : point.isOp "..." = false := by
      simp only [Token.isOp, Bool.and_eq_true, beq_iff_eq] at hpoint
      simp [Token.isOp, hpoint.2]
    simp [operand?, hkind, hdots]
  | cons t ts =>
    have hhead : (ts ++ point :: rest).head?.any (·.kind == .opening) =
        ts.head?.any (·.kind == .opening) := by
      cases ts <;> simp [hkind]
    rw [List.cons_append]
    simp only [operand?]
    cases hk : t.kind with
    | name =>
      simp only [hhead]
      split_ifs <;> simp
    | number => simp
    | operator =>
      dsimp only
      split_ifs <;> simp
    | string =>
      let isString : Token → Bool := fun u => u.kind == .string
      have hstring : isString point = false := by simp [isString, hkind]
      have htake := Text.takeWhile_append_cons hstring (t :: ts) rest
      have hdrop := Text.dropWhile_append_cons hstring (t :: ts) rest
      rw [List.cons_append] at htake hdrop
      simp only [isString] at htake hdrop
      simp [htake, hdrop]
    | opening =>
      dsimp only
      constructor
      · intro h
        have hgroup := Phrase.isGroup_of_group? h
        have htext := Phrase.append_of_group? h
        rw [← List.append_assoc, ← List.cons_append] at htext
        rw [← List.append_cancel_right htext]
        exact hgroup.group?_append behind
      · intro h
        exact Phrase.group?_append h _
    | closing | remark | lineEnd | stray => simp

/-! ### Calls of members -/

/-- Whether members can be taken of a phrase: it is an operand with links behind it. -/
def IsPrimary (p : Phrase) : Prop :=
  ∃ (operand : Phrase) (ls : List (Link × Phrase)),
    operand? p = some (operand, ls.flatMap Prod.snd) ∧ ∀ l ∈ ls, IsLink l

/-- The call of a member as it is written. -/
structure MemberCall where
  receiver : Phrase
  point : Token
  name : Token
  /-- The arguments with their parentheses. -/
  arguments : Phrase
  isPrimary : IsPrimary receiver
  isPoint : point.isOp "." = true
  isName : name.kind = .name
  isGroup : Phrase.IsGroup arguments
  isCall : arguments.head?.any (Token.isBracket '(') = true

namespace MemberCall

/-- The phrase of a call. -/
def phrase (c : MemberCall) : Phrase :=
  c.receiver ++ c.point :: c.name :: c.arguments

/-- The decorator that a call is. -/
def decorator (c : MemberCall) : Decorator :=
  .memberCall (Phrase.text c.receiver) c.name.text (Phrase.text c.arguments)
    (argumentsOf (Phrase.inside c.arguments))

theorem ofPhrase_phrase (c : MemberCall) : Decorator.ofPhrase c.phrase = c.decorator := by
  obtain ⟨operand, ls, hoperand, hlinks⟩ := c.isPrimary
  have hread : operand? c.phrase =
      some (operand, ls.flatMap Prod.snd ++ c.point :: c.name :: c.arguments) :=
    (operand?_append_point c.isPoint).mpr hoperand
  have hls : links? (ls.flatMap Prod.snd ++ c.point :: c.name :: c.arguments) =
      some (ls ++ [(.member c.name.text, [c.point, c.name]),
        (.call (argumentsOf (Phrase.inside c.arguments)), c.arguments)]) := by
    refine links?_eq_some_iff.mpr ⟨by simp, List.forall_mem_append.mpr ⟨hlinks, ?_⟩⟩
    rw [List.forall_mem_cons, List.forall_mem_singleton]
    exact ⟨.member c.isPoint c.isName, .call c.isGroup c.isCall⟩
  have hreceiver := append_of_operand? hoperand
  simp [Decorator.ofPhrase, hread, hls, Decorator.ofChain, chainText, decorator, hreceiver]

end MemberCall

/-- Only a chain that ends with a member and a call is the call of a member. -/
theorem exists_of_ofChain {operand : Phrase} {receiver member text : List Char}
    {arguments : List Argument}
    (h : Decorator.ofChain operand ls = .memberCall receiver member text arguments) :
    ∃ group name before, ls = (.call arguments, group) :: (.member member, name) :: before ∧
      chainText operand before = receiver ∧ Phrase.text group = text := by
  unfold Decorator.ofChain at h
  split at h
  case h_2 arguments' group chosen name before =>
    cases h
    exact ⟨group, name, before, rfl, rfl, rfl⟩
  all_goals
    try split_ifs at h
    all_goals cases h

/-- A decorator is the call of a member exactly if it is written as one. -/
theorem ofPhrase_eq_memberCall_iff {receiver member text : List Char} {arguments : List Argument} :
    Decorator.ofPhrase ts = .memberCall receiver member text arguments ↔
      ∃ c : MemberCall,
        c.phrase = ts ∧ c.decorator = .memberCall receiver member text arguments := by
  constructor
  · intro h
    rw [Decorator.ofPhrase] at h
    split at h
    case h_1 => cases h
    case h_2 operand behind hoperand =>
      split at h
      case h_1 => cases h
      case h_2 ls hls =>
        obtain ⟨group, name, before, hlast, rfl, rfl⟩ := exists_of_ofChain h
        obtain ⟨hbehind, hlinks⟩ := links?_eq_some_iff.mp hls
        rw [List.reverse_eq_iff] at hlast
        simp only [List.reverse_cons, List.append_assoc, List.singleton_append] at hlast
        rw [hlast, List.forall_mem_append, List.forall_mem_cons,
          List.forall_mem_singleton] at hlinks
        obtain ⟨hbefore, hmember, hcall⟩ := hlinks
        cases hmember with
        | @member point name hpoint hname =>
          cases hcall with
          | call hgroup hparenthesis =>
            have htext := append_of_operand? hoperand
            rw [hbehind, hlast, List.flatMap_append] at hoperand htext
            simp only [List.flatMap_cons, List.flatMap_nil, List.append_nil, List.cons_append,
              List.nil_append] at hoperand htext
            rw [← htext, ← List.append_assoc, operand?_append_point hpoint] at hoperand
            refine ⟨⟨operand ++ before.reverse.flatMap Prod.snd, point, name, group,
              ⟨operand, before.reverse, hoperand, hbefore⟩, hpoint, hname, hgroup, hparenthesis⟩,
              ?_, rfl⟩
            rw [MemberCall.phrase, List.append_assoc, htext]
  · rintro ⟨c, rfl, h⟩
    rw [c.ofPhrase_phrase, h]

end Scriptorium.Script
