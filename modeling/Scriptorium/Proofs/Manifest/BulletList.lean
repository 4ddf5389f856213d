/-
Bullet lists are read back: the markup of a list gives the items that are not empty.

In an item every angle bracket is escaped, so that the only tags are those of the list, and every
ampersand is, so that replacing the codes one after the other makes no new code
(`unescapeMarkup_escaped`).
-/

import Scriptorium.Manifest.Display
import Scriptorium.Proofs.Text.Occurrence

namespace Scriptorium.Manifest

open Text (Avoids)

variable {c x : Char}

/-! ### Reading markup -/

/-- The text that a markup text shows: the codes of the angle brackets are replaced, and at last
that of the ampersand. -/
def unescapeMarkup (s : List Char) : List Char :=
  Text.replace "&amp;".toList ['&']
    (Text.replace "&gt;".toList ['>'] (Text.replace "&lt;".toList ['<'] s))

/-- The items of a bullet list without its outer tags, each between a tag before it and one behind
it. -/
def itemsOf (s : List Char) : List (List Char) :=
  ((Text.pieces "</li>".toList s).filterMap (Text.dropStart? "<li>".toList)).map unescapeMarkup

/-- The items of a bullet list, if the text is one. -/
def readBullets? (markup : String) : Option (List String) :=
  ((Text.dropStart? "<ul>".toList markup.toList).bind (Text.dropEnd? "</ul>".toList)).map
    fun inner => (itemsOf inner).map String.ofList

/-! ### Escapes -/

/-- The characters that are written with a code. -/
def markupChars : List Char :=
  ['&', '>', '<']

theorem mem_markupChars_or (c : Char) : c ∈ markupChars ∨ escapeMarkup c = [c] ∧ c ≠ '&' := by
  by_cases h : c ∈ markupChars
  · exact .inl h
  · simp only [markupChars, List.mem_cons, List.not_mem_nil, or_false, not_or] at h
    obtain ⟨hand, hgreater, hless⟩ := h
    refine .inr ⟨?_, hand⟩
    rw [escapeMarkup, if_neg hand, if_neg hless, if_neg hgreater]

/-- Only an ampersand begins a code. -/
theorem avoids_singleton (hx : x ∈ markupChars) (hc : c ≠ '&') : Avoids (escapeMarkup x) [c] := by
  have hcode : ∃ tail, escapeMarkup x = '&' :: tail := by
    simp only [markupChars, List.mem_cons, List.not_mem_nil, or_false] at hx
    rcases hx with rfl | rfl | rfl <;> exact ⟨_, rfl⟩
  obtain ⟨tail, htail⟩ := hcode
  rw [htail]
  exact .of_not_mem fun h => hc (List.mem_singleton.mp h).symm

/-- The codes differ in their second characters, so none of them occurs in another. -/
theorem avoids_escapeMarkup (hx : x ∈ markupChars) (hne : c ≠ x) :
    Avoids (escapeMarkup x) (escapeMarkup c) := by
  rcases mem_markupChars_or c with hc | ⟨hc, hand⟩
  · simp only [markupChars, List.mem_cons, List.not_mem_nil, or_false] at hx hc
    rcases hx with rfl | rfl | rfl <;> rcases hc with rfl | rfl | rfl <;>
      first
      | exact absurd rfl hne
      | exact .of_second_ne (by decide) (by decide)
  · rw [hc]
    exact avoids_singleton hx hand

/-- How a character is written when the codes of some characters have been replaced. -/
def codeBut (done : List Char) (c : Char) : List Char :=
  if c ∈ done then [c] else escapeMarkup c

/-- As long as ampersands have their code, replacing the code of another character changes nothing
but the occurrences that stand for the character. -/
theorem replace_code (hx : x ∈ markupChars) (done : List Char) (hdone : '&' ∉ done)
    (hnew : x ∉ done) (s : List Char) :
    Text.replace (escapeMarkup x) [x] (s.flatMap (codeBut done)) =
      s.flatMap (codeBut (x :: done)) := by
  have hcode : codeBut done x = escapeMarkup x := if_neg hnew
  have hne : escapeMarkup x ≠ [] := by
    rw [escapeMarkup]
    split_ifs <;> exact List.cons_ne_nil _ _
  have havoids (c : Char) (hc : c ≠ x) : Avoids (codeBut done x) (codeBut done c) := by
    rw [hcode, codeBut]
    split
    · rename_i hmem
      exact avoids_singleton hx fun hand => hdone (hand ▸ hmem)
    · exact avoids_escapeMarkup hx hc
  have hupdate : Function.update (codeBut done) x [x] = codeBut (x :: done) := by
    funext c
    by_cases hc : c = x
    · rw [hc, Function.update_self, codeBut, if_pos List.mem_cons_self]
    · simp [codeBut, hc]
  rw [← hcode, Text.replace_flatMap (hcode ▸ hne) havoids, hupdate]

/-- Replacing the codes in turn undoes the escapes, as the ampersand comes last. -/
theorem unescapeMarkup_escaped (s : List Char) : unescapeMarkup (s.flatMap escapeMarkup) = s := by
  have hnone : s.flatMap escapeMarkup = s.flatMap (codeBut []) := rfl
  have hall : codeBut markupChars = fun c => [c] := by
    funext c
    rcases mem_markupChars_or c with hc | ⟨hc, _⟩
    · exact if_pos hc
    · rw [codeBut, hc, ite_self]
  have hless := replace_code (x := '<') (by decide) [] (by decide) (by decide) s
  have hgreater := replace_code (x := '>') (by decide) ['<'] (by decide) (by decide) s
  have hand := replace_code (x := '&') (by decide) ['>', '<'] (by decide) (by decide) s
  change Text.replace (escapeMarkup '&') ['&'] (Text.replace (escapeMarkup '>') ['>']
    (Text.replace (escapeMarkup '<') ['<'] (s.flatMap escapeMarkup))) = s
  rw [hnone, hless, hgreater, hand, ← markupChars, hall, List.flatMap_singleton']

/-! ### Tags -/

/-- There is no tag in what is escaped. -/
theorem less_not_mem_escaped (s : List Char) : '<' ∉ s.flatMap escapeMarkup := by
  intro h
  obtain ⟨c, _, hc⟩ := List.mem_flatMap.mp h
  rw [escapeMarkup] at hc
  split_ifs at hc with hand hless hgreater
  · exact absurd hc (by decide)
  · exact absurd hc (by decide)
  · exact absurd hc (by decide)
  · exact hless (List.mem_singleton.mp hc).symm

/-- The first closing tag behind an item is its own. -/
theorem avoids_item (s : List Char) :
    Avoids "</li>".toList ("<li>".toList ++ s.flatMap escapeMarkup) := by
  have htail : '<' ∉ 'l' :: 'i' :: '>' :: s.flatMap escapeMarkup := by
    simp only [List.mem_cons, not_or]
    exact ⟨by decide, by decide, by decide, less_not_mem_escaped s⟩
  exact Avoids.of_second_ne (a := '/') (by decide) htail

/-- The pieces before the closing tags are the items that are not empty, behind an opening tag. -/
theorem pieces_bullets (items : List (List Char)) :
    Text.pieces "</li>".toList (items.flatMap bullet) =
      (items.filter (!·.isEmpty)).map (fun item => "<li>".toList ++ item.flatMap escapeMarkup)
        ++ [[]] := by
  induction items with
  | nil => rfl
  | cons item items ih =>
    rw [List.flatMap_cons, bullet]
    cases hempty : item.isEmpty with
    | true => rw [if_pos rfl, List.nil_append, ih, List.filter_cons_of_neg (by simp [hempty])]
    | false =>
      rw [if_neg Bool.false_ne_true, List.append_assoc, Text.pieces_append (avoids_item item),
        Text.pieces_mark_append (by decide), ih, List.filter_cons_of_pos (by simp [hempty])]
      simp

theorem itemsOf_bullets (items : List (List Char)) :
    itemsOf (items.flatMap bullet) = items.filter (!·.isEmpty) := by
  have hitem (item : List Char) :
      Text.dropStart? "<li>".toList ("<li>".toList ++ item.flatMap escapeMarkup) =
        some (item.flatMap escapeMarkup) :=
    Text.dropStart?_eq_some_iff.mpr rfl
  have hlast : Text.dropStart? "<li>".toList [] = none := rfl
  rw [itemsOf, pieces_bullets, List.filterMap_append, List.filterMap_map, List.map_append]
  simp only [Function.comp_def, hitem, List.filterMap_cons, List.filterMap_nil, hlast,
    List.map_nil, List.append_nil]
  rw [List.filterMap_eq_map', List.map_map]
  conv_rhs => rw [← List.map_id (items.filter _)]
  exact List.map_congr_left fun item _ => unescapeMarkup_escaped item

/-- **Bullet lists are read back.** The markup of items gives those that are not empty, in their
order. -/
theorem readBullets?_bulletList (items : List String) :
    readBullets? (bulletList items) = some (items.filter (· ≠ "")) := by
  have hmarkup : (bulletList items).toList =
      "<ul>".toList ++ ((items.map String.toList).flatMap bullet ++ "</ul>".toList) := by
    rw [bulletList, String.toList_ofList, bulletChars, List.append_assoc]
  have hstart := Text.dropStart?_eq_some_iff.mpr hmarkup
  have hend : Text.dropEnd? "</ul>".toList
      ((items.map String.toList).flatMap bullet ++ "</ul>".toList) =
        some ((items.map String.toList).flatMap bullet) :=
    Text.dropEnd?_eq_some_iff.mpr rfl
  have hempty (item : String) : (!item.toList.isEmpty) = decide (item ≠ "") := by
    rw [Bool.eq_iff_iff, Bool.not_eq_true', ← Bool.not_eq_true, List.isEmpty_iff,
      String.toList_eq_nil_iff, decide_eq_true_iff]
  have hitems : ((items.map String.toList).filter (!·.isEmpty)).map String.ofList =
      items.filter (· ≠ "") := by
    rw [List.filter_map, List.map_map]
    simp only [Function.comp_def, hempty, String.ofList_toList, List.map_id']
  rw [readBullets?, hstart, Option.bind_some, hend, Option.map_some, itemsOf_bullets, hitems]

example : bulletList ["a & b", "", "</li>&lt;"] =
    "<ul><li>a &amp; b</li><li>&lt;/li&gt;&amp;lt;</li></ul>" := by decide +kernel

end Scriptorium.Manifest
