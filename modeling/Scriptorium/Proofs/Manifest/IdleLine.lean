/-
Lines without an equals sign say nothing outside a list: blank lines, remarks, and whatever else.

A remark leaves a scalar pending, and a blank line enters it early. In either case the entries of
the lines before and behind follow one another (`entriesOf_readLines_append`), whatever these lines
are, so the line between them may as well be missing.
-/

import Scriptorium.Proofs.Manifest.Assignment

namespace Scriptorium.Manifest

variable {line before opening : List Char} {front rest : List (List Char)}

/-- Where nothing is pending, a line without an equals sign is passed over. -/
theorem readLines_of_no_sign (h : '=' ∉ line) (rest : List (List Char)) :
    readLines .nothing (line :: rest) = readLines .nothing rest := by
  simp [readLines_cons, step, h]

/-- **Remarks are of no account.** With a line without an equals sign, be it blank or a comment, at
a place of a block where no list is open, a script has the same manifest, its source included. -/
theorem read_insert_idle (hblock : IsBlock before opening (front ++ rest))
    (hfront : Settled (stateAfter .nothing (front.map Text.trim))) (hsign : '=' ∉ line)
    (hfeed : '\n' ∉ line) (hmark : ¬closingMark <:+: line) (after : List Char) :
    (read (scriptOf before opening (front ++ line :: rest) after)).manifest =
      (read (scriptOf before opening (front ++ rest) after)).manifest := by
  have hinsert := hblock.insert hfeed hmark
  have htrim : '=' ∉ Text.trim line := fun hmem => hsign (Text.trim_subset line hmem)
  rw [read_of_block (hinsert.block?_eq after), read_of_block (hblock.block?_eq after)]
  apply manifest_ofEvents_congr
  rw [entriesOf_eventsOf_separated hinsert.no_feed, entriesOf_eventsOf_separated hblock.no_feed,
    List.map_append, List.map_append, List.map_cons, entriesOf_readLines_append hfront,
    entriesOf_readLines_append hfront, readLines_of_no_sign htrim]

/-- A blank line enters a scalar early, and the source of the script is read all the same. -/
theorem read_insert_idle_of_blank :
    let front := ["# external_source = 'a.py'".toList]
    let rest := ["# a remark".toList, "# tags = [".toList, "# 'b'".toList, "".toList]
    let changed := scriptOf [] (openingMark ++ ['\n']) (front ++ " \t".toList :: rest) []
    let original := scriptOf [] (openingMark ++ ['\n']) (front ++ rest) []
    Settled (stateAfter .nothing (front.map Text.trim)) ∧
      (read changed).manifest = (read original).manifest ∧
      (read changed).manifest.source = some "a.py" ∧
      (read changed).manifest.get? "tags" = some (.list ["b"]) ∧
      (read changed).warnings ≠ (read original).warnings := by
  intro front rest changed original
  have hblock : IsBlock [] (openingMark ++ ['\n']) (front ++ rest) :=
    ⟨List.mem_cons_self, by decide +kernel, by decide +kernel, by decide +kernel⟩
  have hfront : Settled (stateAfter .nothing (front.map Text.trim)) := by decide +kernel
  refine ⟨hfront, read_insert_idle hblock hfront (by decide) (by decide) (by decide +kernel) [], ?_⟩
  subst changed original
  decide +kernel

end Scriptorium.Manifest
