/-
Another scalar on the line of a key changes nothing but the entry of that key.

With either scalar the line begins an entry of the same key, and leaves the reader where no list is
open. From there the same assignments are read (`assignments_of_settled`), so the entries that are
put in order differ in one place, and there not in the key (`entriesOf_scalarLine`).
-/

import Scriptorium.Proofs.Manifest.Assignment

namespace Scriptorium.Manifest

variable {head v w before opening : List Char} {front rest : List (List Char)} {p : Pending}

/-! ### Lines with a scalar -/

/-- The key of a line, from what stands before its equals sign. -/
def keyBefore (head : List Char) : List Char :=
  Text.trim (dropMarks (Text.trimLeft head))

/-- What stands behind an equals sign is a scalar: it does not begin with a bracket. -/
def BeginsScalar (v : List Char) : Prop :=
  (Text.trim v).head? ≠ some '['

instance (v : List Char) : Decidable (BeginsScalar v) :=
  inferInstanceAs (Decidable (_ ≠ _))

/-- The entry of a line with a scalar; without a key there is none. -/
def enteredScalar (head v : List Char) : Option (String × Value) :=
  if (keyBefore head).isEmpty then none
  else some (String.ofList (keyBefore head), .scalar (String.ofList (dropQuotes (Text.trim v))))

theorem cutAt_trim (hhead : '=' ∉ head) (v : List Char) :
    Text.cutAt '=' (Text.trim (head ++ '=' :: v)) =
      some (Text.trimLeft head, Text.trimRight v) := by
  refine Text.cutAt_eq_some_iff.mpr ⟨Text.trim_append_cons (by decide) head v, fun hmem => ?_⟩
  exact hhead ((List.dropWhile_sublist _).subset hmem)

theorem BeginsScalar.ne_cons (hv : BeginsScalar v) (s : List Char) : Text.trim v ≠ '[' :: s := by
  intro htrim
  exact hv (by rw [htrim]; rfl)

/-- The value of a scalar does not depend on the lines behind it. -/
theorem BeginsScalar.value_eq (hv : BeginsScalar v) (key : String) (rest : List (List Char)) :
    (Assignment.mk key (Text.trim v) rest).value =
      .scalar (String.ofList (dropQuotes (Text.trim v))) := by
  rw [Assignment.value]
  split
  case h_1 s htrim => exact absurd htrim (hv.ne_cons s)
  case h_2 => rfl

theorem assignment?_scalarLine (hhead : '=' ∉ head) (hv : BeginsScalar v)
    (rest : List (List Char)) :
    (assignment? (Text.trim (head ++ '=' :: v)) rest).map Assignment.entry =
      enteredScalar head v := by
  have hassignment : assignment? (Text.trim (head ++ '=' :: v)) rest =
      if (keyBefore head).isEmpty then none
      else some ⟨String.ofList (keyBefore head), Text.trim v, rest⟩ := by
    rw [assignment?, cutAt_trim hhead, Option.bind_some, ← Text.trim_trimRight v]
    rfl
  rw [hassignment, enteredScalar]
  split
  · rfl
  · rw [Option.map_some, Assignment.entry, hv.value_eq]

/-- Behind a line with a scalar no list is open. -/
theorem settled_scalarLine (hp : Settled p) (hhead : '=' ∉ head) (hv : BeginsScalar v) :
    Settled (step p (Text.trim (head ++ '=' :: v))).1 := by
  have hvalue (key : String) : Settled (beginValue key (Text.trim v)).1 := by
    rw [beginValue]
    · exact settled_scalar _ _
    · exact fun s htrim => hv.ne_cons s htrim
  have hsign : '=' ∈ Text.trim (head ++ '=' :: v) := by
    rw [Text.trim_append_cons (by decide)]
    simp
  rw [step_fst_of_settled hp, if_pos hsign, beginEntry, cutAt_trim hhead]
  simp only [Text.trim_trimRight]
  split
  · exact settled_nothing
  · exact hvalue _

/-- Reading a line with a scalar enters what was pending, then the scalar under the key of the line,
then what the lines behind assign. -/
theorem entriesOf_scalarLine (hp : Settled p) (hhead : '=' ∉ head) (hv : BeginsScalar v)
    (rest : List (List Char)) :
    entriesOf (readLines p (Text.trim (head ++ '=' :: v) :: rest)) =
      (p.begun? []).toList ++ ((enteredScalar head v).toList ++
        (assignments .nothing rest).map Assignment.entry) := by
  rw [entries_readLines, assignments, if_pos hp, List.map_append, ← Option.toList_map,
    assignment?_scalarLine hhead hv, Pending.begun?_of_settled hp _ [],
    assignments_of_settled (settled_scalarLine hp hhead hv) settled_nothing]

/-- In a block the entry of a line with a scalar stands between two lists of entries that do not
depend on the scalar. -/
theorem exists_entriesOf (hfront : Settled (stateAfter .nothing (front.map Text.trim)))
    (hhead : '=' ∉ head) (rest : List (List Char)) :
    ∃ earlier later, ∀ v, BeginsScalar v → (∀ l ∈ front ++ (head ++ '=' :: v) :: rest, '\n' ∉ l) →
      entriesOf (eventsOf (Text.separated (front ++ (head ++ '=' :: v) :: rest))) =
        earlier ++ ((enteredScalar head v).toList ++ later) := by
  refine ⟨entriesOf (yieldOf .nothing (front.map Text.trim)) ++
    ((stateAfter .nothing (front.map Text.trim)).begun? []).toList,
    (assignments .nothing ((rest.map Text.trim).rdropWhile List.isEmpty)).map Assignment.entry, ?_⟩
  intro v hv hfeed
  have hline : Text.trim (head ++ '=' :: v) ≠ [] :=
    Text.trim_ne_nil (c := '=') (by decide) (by simp)
  rw [eventsOf_separated hfeed hline, readLines_append, entriesOf_append,
    entriesOf_scalarLine hfront hhead hv, List.append_assoc]

/-! ### Entries under other keys -/

/-- Entries under other keys do not change what a key holds. -/
theorem get?_ofEntries_append {key : String} {entries : List (String × Value)}
    (h : ∀ e ∈ entries, e.1 ≠ key) (earlier later : List (String × Value)) :
    (ofEntries (earlier ++ (entries ++ later))).get? key =
      (ofEntries (earlier ++ later)).get? key := by
  have hnone : entries.reverse.find? (fun e => e.1 == key) = none := by
    rw [List.find?_eq_none]
    intro e he
    simpa using h e (List.mem_reverse.mp he)
  simp only [get?_ofEntries, List.reverse_append, List.find?_append, hnone, Option.or_none]

theorem map_fst_enteredScalar (head v w : List Char) :
    (enteredScalar head v).toList.map Prod.fst = (enteredScalar head w).toList.map Prod.fst := by
  rw [enteredScalar, enteredScalar]
  split <;> rfl

theorem fst_of_mem_enteredScalar {e : String × Value} (h : e ∈ (enteredScalar head v).toList) :
    e.1 = String.ofList (keyBefore head) := by
  rw [enteredScalar] at h
  split at h
  · cases h
  · rw [List.mem_singleton.mp h]

/-! ### Scripts -/

/-- **Another scalar changes one entry.** With another scalar on the line of a key, the keys stay in
their order and the entries under other keys hold what they held. -/
theorem read_scalar_change
    (hblock : IsBlock before opening (front ++ (head ++ '=' :: v) :: rest))
    (hfront : Settled (stateAfter .nothing (front.map Text.trim))) (hhead : '=' ∉ head)
    (hv : BeginsScalar v) (hw : BeginsScalar w) (hfeed : '\n' ∉ w)
    (hmark : ¬closingMark <:+: head ++ '=' :: w) (after : List Char) :
    let original := scriptOf before opening (front ++ (head ++ '=' :: v) :: rest) after
    let changed := scriptOf before opening (front ++ (head ++ '=' :: w) :: rest) after
    (read changed).manifest.entries.keys = (read original).manifest.entries.keys ∧
      ∀ key, key ≠ String.ofList (keyBefore head) →
        (read changed).manifest.get? key = (read original).manifest.get? key := by
  intro original changed
  have hline : '\n' ∉ head ++ '=' :: w := by
    have hv := hblock.no_feed (head ++ '=' :: v) (by simp)
    simp only [List.mem_append, List.mem_cons, not_or] at hv ⊢
    exact ⟨hv.1, hv.2.1, hfeed⟩
  have hblock' := hblock.replace hline hmark
  obtain ⟨earlier, later, hentries⟩ := exists_entriesOf hfront hhead rest
  have horiginal := hentries v hv hblock.no_feed
  have hchanged := hentries w hw hblock'.no_feed
  rw [read_of_block (hblock.block?_eq after), read_of_block (hblock'.block?_eq after)]
  constructor
  · rw [entries_ofEvents, entries_ofEvents, keys_ofEntries, keys_ofEntries, horiginal, hchanged]
    simp only [List.map_append, map_fst_enteredScalar head v w]
  · intro key hkey
    have hother (u : List Char) : ∀ e ∈ (enteredScalar head u).toList, e.1 ≠ key :=
      fun e he heq => hkey (heq.symm.trans (fst_of_mem_enteredScalar he))
    rw [get?_ofEvents, get?_ofEvents, horiginal, hchanged, get?_ofEntries_append (hother v),
      get?_ofEntries_append (hother w)]

theorem read_scalar_change_of_title :
    let front := ["# version = 1".toList]
    let rest := ["# tags = ['a',".toList, "# 'b' ]".toList, "# author = c".toList, []]
    let original := scriptOf [] (openingMark ++ ['\n'])
      (front ++ ("# title ".toList ++ '=' :: " 'old'".toList) :: rest) []
    let changed := scriptOf [] (openingMark ++ ['\n'])
      (front ++ ("# title ".toList ++ '=' :: "tags = [1] # 'new'".toList) :: rest) []
    IsBlock [] (openingMark ++ ['\n'])
        (front ++ ("# title ".toList ++ '=' :: " 'old'".toList) :: rest) ∧
      (read changed).manifest.entries.keys = (read original).manifest.entries.keys ∧
      (read changed).manifest.get? "tags" = (read original).manifest.get? "tags" ∧
      (read original).manifest.get? "tags" = some (.list ["a", "b"]) ∧
      (read original).manifest.get? "title" = some (.scalar "old") ∧
      (read changed).manifest.get? "title" = some (.scalar "tags = [1] # 'new") := by
  intro front rest original changed
  have hblock : IsBlock [] (openingMark ++ ['\n'])
      (front ++ ("# title ".toList ++ '=' :: " 'old'".toList) :: rest) :=
    ⟨List.mem_cons_self, by decide +kernel, by decide +kernel, by decide +kernel⟩
  have hfront : Settled (stateAfter .nothing (front.map Text.trim)) := by decide +kernel
  obtain ⟨hkeys, hothers⟩ := read_scalar_change hblock hfront (by decide) (by decide) (by decide)
    (w := "tags = [1] # 'new'".toList) (by decide) (by decide +kernel) []
  have htags : "tags" ≠ String.ofList (keyBefore "# title ".toList) := by decide +kernel
  subst original changed
  refine ⟨hblock, hkeys, hothers "tags" htags, ?_, ?_, ?_⟩
  all_goals decide +kernel

end Scriptorium.Manifest
