/-
A scalar in double quotation marks, and what is stored of it.

The quotation marks are not read as those of a string: the double ones are trimmed from the ends of
the value, and then the single ones. So a text keeps what is in it, and loses single quotation marks
at its ends (`dropQuotes_quoted`).
-/

import Scriptorium.Proofs.Manifest.ListLine
import Scriptorium.Proofs.Manifest.ScalarChange

namespace Scriptorium.Manifest

variable {key : String} {v g head before opening : List Char} {front rest : List (List Char)}

/-! ### The value -/

/-- A text without the single quotation marks at its ends. -/
def bared (v : List Char) : List Char :=
  Text.trimWhile (· == '\'') v

theorem bared_eq_self_iff : bared v = v ↔ v.head? ≠ some '\'' ∧ v.getLast? ≠ some '\'' := by
  rw [bared, Text.trimWhile_beq_eq_iff]
  exact ⟨fun h => ⟨h.head, h.last⟩, fun h => .self h.1 h.2⟩

theorem dropQuotes_quoted (h : '"' ∉ v) : dropQuotes ('"' :: (v ++ ['"'])) = bared v :=
  dropQuotes_eq_iff.mpr ⟨v, ⟨⟨1, 1, rfl⟩, fun hc => h (List.mem_of_mem_head? hc),
    fun hc => h (List.mem_of_mem_getLast? hc)⟩, Text.trimWhile_beq_eq_iff.mp rfl⟩

/-- Between blanks stands the value with its quotation marks. -/
theorem trim_quoted {k : List Char} (hk : Blanks k) (hg : Blanks g) (v : List Char) :
    Text.trim (k ++ '"' :: (v ++ '"' :: g)) = '"' :: (v ++ ['"']) := by
  rw [Text.trim_append_cons (by decide), Text.trimRight_append_cons (by decide), hk.trimLeft_eq,
    hg.trimRight_eq, List.nil_append]

/-! ### The line -/

/-- A line with a quoted scalar enters it under the key of the line. -/
theorem entriesOf_quotedLine (hhead : KeyHead key head) (hkey : IsKey key.toList) (hv : '"' ∉ v)
    (hg : Blanks g) :
    entriesOf (readLines .nothing [Text.trim (head ++ '"' :: (v ++ '"' :: g))]) =
        [(key, .scalar (String.ofList (bared v)))] ∧
      Settled (stateAfter .nothing [Text.trim (head ++ '"' :: (v ++ '"' :: g))]) := by
  obtain ⟨left, k, rfl, hsign, hk, hleft⟩ := hhead.key_eq hkey
  have htrim := trim_quoted hk hg v
  have hscalar : BeginsScalar (k ++ '"' :: (v ++ '"' :: g)) := by
    rw [BeginsScalar, htrim]
    simp
  have hentered : enteredScalar left (k ++ '"' :: (v ++ '"' :: g)) =
      some (key, .scalar (String.ofList (bared v))) := by
    have hbefore : keyBefore left = key.toList := hleft
    have hempty : key.toList.isEmpty = false := by simpa using hkey.ne_nil
    rw [enteredScalar, hbefore, hempty, htrim, dropQuotes_quoted hv, String.ofList_toList]
    rfl
  have hline : left ++ '=' :: k ++ '"' :: (v ++ '"' :: g) =
      left ++ '=' :: (k ++ '"' :: (v ++ '"' :: g)) := by simp
  rw [hline]
  refine ⟨?_, settled_scalarLine settled_nothing hsign hscalar⟩
  rw [entriesOf_scalarLine settled_nothing hsign hscalar, hentered]
  rfl

/-- In a block the scalar stands between the entries of the lines before and those of the lines
behind. -/
theorem entriesOf_block_quotedLine (hhead : KeyHead key head) (hkey : IsKey key.toList)
    (hv : '"' ∉ v) (hg : Blanks g)
    (hfeed : ∀ l ∈ front ++ (head ++ '"' :: (v ++ '"' :: g)) :: rest, '\n' ∉ l)
    (hfront : Settled (stateAfter .nothing (front.map Text.trim))) :
    entriesOf (eventsOf (Text.separated (front ++ (head ++ '"' :: (v ++ '"' :: g)) :: rest))) =
      entriesOf (readLines .nothing (front.map Text.trim)) ++
        (key, .scalar (String.ofList (bared v))) :: entriesOf (eventsOf (Text.separated rest)) := by
  obtain ⟨hentry, hsettled⟩ := entriesOf_quotedLine hhead hkey hv hg
  have hrest : ∀ l ∈ rest, '\n' ∉ l := fun l hl =>
    hfeed l (List.mem_append_right _ (List.mem_cons_of_mem _ hl))
  rw [entriesOf_eventsOf_separated hfeed, entriesOf_eventsOf_separated hrest, List.map_append,
    entriesOf_readLines_append hfront, List.map_cons, ← List.singleton_append,
    entriesOf_readLines_append hsettled, hentry, List.singleton_append]

/-! ### Scripts -/

/-- **A quoted scalar.** In every script and every block, and where no list is open, a text in
double quotation marks is entered under its key, without the single quotation marks at its ends; so
it is what the key holds unless the key is assigned again. It is the text itself exactly if there
are no single quotation marks at its ends. -/
theorem read_quoted_scalar
    (hblock : IsBlock before opening (front ++ (head ++ '"' :: (v ++ '"' :: g)) :: rest))
    (hfront : Settled (stateAfter .nothing (front.map Text.trim))) (hhead : KeyHead key head)
    (hkey : IsKey key.toList) (hne : key ≠ dependenciesKey) (hv : '"' ∉ v) (hg : Blanks g)
    (after : List Char) :
    let text := scriptOf before opening (front ++ (head ++ '"' :: (v ++ '"' :: g)) :: rest) after
    (read text).manifest = (Reading.ofEvents (readLines .nothing (front.map Text.trim) ++
        .entry key (.scalar (String.ofList (bared v))) ::
          eventsOf (Text.separated rest))).manifest ∧
      (key ∉ (entriesOf (eventsOf (Text.separated rest))).map Prod.fst →
        (read text).manifest.get? key = some (.scalar (String.ofList (bared v)))) ∧
      (bared v = v ↔ v.head? ≠ some '\'' ∧ v.getLast? ≠ some '\'') := by
  intro text
  have hread : (read text).manifest = (Reading.ofEvents (readLines .nothing (front.map Text.trim) ++
      .entry key (.scalar (String.ofList (bared v))) ::
        eventsOf (Text.separated rest))).manifest := by
    rw [read_of_block (hblock.block?_eq after)]
    apply manifest_ofEvents_congr
    rw [entriesOf_block_quotedLine hhead hkey hv hg hblock.no_feed hfront, entriesOf_append,
      entriesOf_entry]
  refine ⟨hread, fun hlater => ?_, bared_eq_self_iff⟩
  rw [hread, get?_ofEvents_entry hlater, coerce, if_neg hne]

theorem read_quoted_scalar_of_apostrophe :
    let v := "'tis [it's] = #1".toList
    let front := ["# title = old".toList]
    let rest := ["".toList, "# tags = ['a'".toList, "# ]".toList]
    let text := scriptOf [] (openingMark ++ ['\n'])
      (front ++ ("#title= ".toList ++ '"' :: (v ++ '"' :: [' '])) :: rest) []
    '"' ∉ v ∧ Settled (stateAfter .nothing (front.map Text.trim)) ∧
      (read text).manifest.get? "title" = some (.scalar (String.ofList (bared v))) ∧
      (read text).manifest.get? "title" = some (.scalar "tis [it's] = #1") := by
  intro v front rest text
  have hmargin : Margin "#".toList := @Margin.mk [] [] (by decide) (List.all_eq_true.mp rfl)
  have hhead : KeyHead "title" "#title= ".toList :=
    @KeyHead.comment _ "#".toList [] [] [' '] hmargin (by decide) (by decide) (by decide)
  have hblock : IsBlock [] (openingMark ++ ['\n'])
      (front ++ ("#title= ".toList ++ '"' :: (v ++ '"' :: [' '])) :: rest) :=
    ⟨List.mem_cons_self, by decide +kernel, by decide +kernel, by decide +kernel⟩
  have hfront : Settled (stateAfter .nothing (front.map Text.trim)) := by decide +kernel
  have hv : '"' ∉ v := by decide
  have hstored := (read_quoted_scalar hblock hfront hhead (by decide) (by decide) hv (by decide)
    []).2.1 (by decide +kernel)
  have hbared : String.ofList (bared v) = "tis [it's] = #1" := by decide +kernel
  exact ⟨hv, hfront, hstored, hbared ▸ hstored⟩

/-- A text in quotation marks of both kinds is not kept as it is. -/
theorem read_quoted_scalar_of_both :
    let line := "# title = \"'x'\"".toList
    line = entryLine ("title", .scalar "'x'") ∧ '"' ∉ "'x'".toList ∧
      IsBlock [] (openingMark ++ ['\n']) [line, []] ∧
      (read (scriptOf [] (openingMark ++ ['\n']) [line, []] [])).manifest.get? "title" ≠
        some (.scalar "'x'") := by
  intro line
  refine ⟨by decide +kernel, by decide, ?_, by decide +kernel⟩
  exact ⟨List.mem_cons_self, by decide +kernel, by decide +kernel, by decide +kernel⟩

end Scriptorium.Manifest
