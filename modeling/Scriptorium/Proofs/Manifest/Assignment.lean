/-
Nothing that a block assigns is lost.

An assignment is a line with an equals sign behind a key, outside an open list. What its value is
depends on the line and, where it opens a list, on the lines behind it; it is stated here without
the reader's state. What is pending between two lines is the entry of the last assignment, as far as
it has been read: `entries_step` shows that a line completes or keeps it, and `entries_readLines`
that therefore a block enters its assignments in order.
-/

import Scriptorium.Proofs.Manifest.Run

namespace Scriptorium.Manifest

variable {text : String} {block : List Char}

/-! ### Assignments -/

/-- An assignment: a key, the text behind its equals sign, and the lines behind its line. -/
structure Assignment where
  key : String
  text : List Char
  behind : List (List Char)

/-- The assignment on a line, with the lines behind it; without a key there is none. -/
def assignment? (line : List Char) (behind : List (List Char)) : Option Assignment :=
  (Text.cutAt '=' line).bind fun (left, right) =>
    let key := Text.trim (dropMarks left)
    if key.isEmpty then none else some ⟨String.ofList key, Text.trim right, behind⟩

/-- The items on the lines behind one that opens a list: comment lines, up to the first that ends
with a closing bracket. -/
def continued : List (List Char) → List String
  | [] => []
  | line :: rest =>
    if isComment line then
      lineItems (dropMarks line) ++ if line.getLast? = some ']' then [] else continued rest
    else []

/-- The list in brackets on one line. A malformed one is an empty list of dependencies, and the
text itself under any other key. -/
def inlineList (key : String) (text : List Char) : Value :=
  match Literal.parseStrings (String.ofList text) with
  | .ok items => .list items
  | .error _ =>
    if key = dependenciesKey then .list [] else .scalar (String.ofList (dropQuotes text))

/-- The value that an assignment gives to its key. Which quotation marks a scalar loses is said by
`dropQuotes_eq_iff`. -/
def Assignment.value (a : Assignment) : Value :=
  match a.text with
  | '[' :: head =>
    if head.getLast? = some ']' then inlineList a.key a.text
    else .list (lineItems head ++ continued a.behind)
  | _ => .scalar (String.ofList (dropQuotes a.text))

/-- The entry that an assignment makes. -/
def Assignment.entry (a : Assignment) : String × Value :=
  (a.key, a.value)

/-- The assignments on lines that are read from a state: those where no list is open. -/
def assignments (p : Pending) : List (List Char) → List Assignment
  | [] => []
  | line :: rest =>
    (if Settled p then (assignment? line rest).toList else []) ++ assignments (step p line).1 rest

/-- The assignments of a block. -/
def assignmentsOf (block : List Char) : List Assignment :=
  assignments .nothing ((Text.lines (Text.trim block)).map Text.trim)

/-! ### Entries -/

/-- The entry that is pending before some lines. -/
def Pending.begun? (p : Pending) (rest : List (List Char)) : Option (String × Value) :=
  match p with
  | .nothing => none
  | .scalar key value => some (key, .scalar value)
  | .list key items => some (key, .list (items ++ continued rest))

@[simp] theorem Pending.begun?_nothing (rest : List (List Char)) :
    Pending.nothing.begun? rest = none := rfl

@[simp] theorem Pending.begun?_scalar (key value : String) (rest : List (List Char)) :
    (Pending.scalar key value).begun? rest = some (key, .scalar value) := rfl

@[simp] theorem Pending.begun?_list (key : String) (items : List String)
    (rest : List (List Char)) :
    (Pending.list key items).begun? rest = some (key, .list (items ++ continued rest)) := rfl

theorem entriesOf_enterList (key : String) (text : List Char) :
    entriesOf (enterList key text) = [(key, inlineList key text)] := by
  unfold enterList inlineList
  cases Literal.parseStrings (String.ofList text) with
  | ok items => rfl
  | error error =>
    simp only
    split <;> rfl

theorem entries_beginValue (a : Assignment) :
    entriesOf (beginValue a.key a.text).2 ++
      ((beginValue a.key a.text).1.begun? a.behind).toList = [a.entry] := by
  obtain ⟨key, text, behind⟩ := a
  cases text with
  | nil => rfl
  | cons c head =>
    by_cases hopen : c = '['
    · subst hopen
      by_cases hlast : head.getLast? = some ']'
      · simp [beginValue, Assignment.entry, Assignment.value, hlast, entriesOf_enterList]
      · simp [beginValue, Assignment.entry, Assignment.value, hlast]
    · simp [beginValue, Assignment.entry, Assignment.value, hopen]

/-- A line enters its assignment, or leaves it pending. -/
theorem entries_beginEntry (line : List Char) (rest : List (List Char)) :
    entriesOf (beginEntry line).2 ++ ((beginEntry line).1.begun? rest).toList =
      (assignment? line rest).toList.map Assignment.entry := by
  unfold beginEntry assignment?
  cases Text.cutAt '=' line with
  | none => rfl
  | some sides =>
    obtain ⟨left, right⟩ := sides
    simp only [Option.bind_some]
    by_cases hkey : (Text.trim (dropMarks left)).isEmpty
    · rw [if_pos hkey, if_pos hkey]
      rfl
    · rw [if_neg hkey, if_neg hkey]
      exact entries_beginValue ⟨String.ofList (Text.trim (dropMarks left)), Text.trim right, rest⟩

theorem assignment?_of_not_mem {line : List Char} (h : '=' ∉ line) (rest : List (List Char)) :
    assignment? line rest = none := by
  rw [assignment?]
  cases hcut : Text.cutAt '=' line with
  | none => rfl
  | some sides =>
    obtain ⟨left, right⟩ := sides
    obtain ⟨rfl, _⟩ := Text.cutAt_eq_some_iff.mp hcut
    exact absurd (by simp) h

/-- One line: what was pending is entered or still pending, and behind it stands the assignment of
the line. -/
theorem entries_step (p : Pending) (line : List Char) (rest : List (List Char)) :
    entriesOf (step p line).2 ++ ((step p line).1.begun? rest).toList =
      (p.begun? (line :: rest)).toList ++
        (if Settled p then (assignment? line rest).toList else []).map Assignment.entry := by
  cases p with
  | nothing =>
    by_cases hsign : '=' ∈ line
    · simp [step, hsign, entries_beginEntry]
    · simp [step, hsign, assignment?_of_not_mem hsign]
  | scalar key value =>
    by_cases hsign : '=' ∈ line
    · simp [step, hsign, entries_beginEntry]
    · simp only [step, hsign, if_false, assignment?_of_not_mem hsign]
      split <;> simp
  | list key items =>
    by_cases hcomment : isComment line
    · by_cases hlast : line.getLast? = some ']'
      · simp [step, hcomment, hlast, continued]
      · simp [step, hcomment, hlast, continued]
    · simp [step, hcomment, continued]

/-- All lines: what was pending is entered first, then every assignment in order. -/
theorem entries_readLines (p : Pending) (lines : List (List Char)) :
    entriesOf (readLines p lines) =
      (p.begun? lines).toList ++ (assignments p lines).map Assignment.entry := by
  induction lines generalizing p with
  | nil =>
    cases p with
    | nothing => rfl
    | scalar key value => exact entriesOf_enterScalar key value
    | list key items => simp [readLines, finish, Pending.begun?, continued, assignments]
  | cons line rest ih =>
    -- What the line leaves pending is the first entry of the rest.
    rw [readLines_cons, entriesOf_append, ih, ← List.append_assoc, entries_step, assignments,
      List.map_append, List.append_assoc]

/-! ### States without an open list -/

/-- What is pending where no list is open does not depend on the lines behind. -/
theorem Pending.begun?_of_settled {p : Pending} (hp : Settled p) (rest more : List (List Char)) :
    p.begun? rest = p.begun? more := by
  cases p with
  | nothing => rfl
  | scalar key value => rfl
  | list key items => exact absurd hp (not_settled_list key items)

/-- The state behind a line that is read where no list is open. -/
theorem step_fst_of_settled {p : Pending} (hp : Settled p) (line : List Char) :
    (step p line).1 = if '=' ∈ line then (beginEntry line).1
      else if isComment line then p else .nothing := by
  cases p with
  | nothing => by_cases hsign : '=' ∈ line <;> simp [step, hsign]
  | scalar key value =>
    rw [step]
    split
    · rfl
    · split <;> rfl
  | list key items => exact absurd hp (not_settled_list key items)

/-- Which assignments are read does not depend on the scalar that is pending before them. -/
theorem assignments_of_settled {p q : Pending} (hp : Settled p) (hq : Settled q)
    (lines : List (List Char)) : assignments p lines = assignments q lines := by
  induction lines generalizing p q with
  | nil => rfl
  | cons line rest ih =>
    have hrest : assignments (step p line).1 rest = assignments (step q line).1 rest := by
      rw [step_fst_of_settled hp, step_fst_of_settled hq]
      by_cases hsign : '=' ∈ line
      · rw [if_pos hsign, if_pos hsign]
      · rw [if_neg hsign, if_neg hsign]
        by_cases hcomment : isComment line
        · rw [if_pos hcomment, if_pos hcomment]
          exact ih hp hq
        · rw [if_neg hcomment, if_neg hcomment]
    rw [assignments, assignments, if_pos hp, if_pos hq, hrest]

/-- Where no list is open, the entries of the lines before and behind follow one another. -/
theorem entriesOf_readLines_append {p : Pending} {front : List (List Char)}
    (h : Settled (stateAfter p front)) (rest : List (List Char)) :
    entriesOf (readLines p (front ++ rest)) =
      entriesOf (readLines p front) ++ entriesOf (readLines .nothing rest) := by
  have hrest : entriesOf (readLines (stateAfter p front) rest) =
      entriesOf (finish (stateAfter p front)) ++ entriesOf (readLines .nothing rest) := by
    have hfinish : readLines (stateAfter p front) [] = finish (stateAfter p front) := rfl
    rw [← hfinish, entries_readLines, entries_readLines, entries_readLines,
      assignments_of_settled h settled_nothing, Pending.begun?_of_settled h rest []]
    simp [assignments]
  rw [readLines_append, readLines_eq p front, entriesOf_append, entriesOf_append, hrest,
    List.append_assoc]

/-! ### Manifests -/

theorem entriesOf_eventsOf (block : List Char) :
    entriesOf (eventsOf block) = (assignmentsOf block).map Assignment.entry :=
  entries_readLines .nothing _

/-- **Nothing begun is lost.** The keys of a manifest are the keys its block assigns, each once and
in the order of first assignment; a key holds the value of its last assignment; and the
dependencies are a list. -/
theorem read_assignments (h : block? text.toList = some block) :
    (read text).manifest.entries.keys =
        ((assignmentsOf block).map Assignment.key).eraseDups ∧
      (∀ key, (read text).manifest.get? key =
        ((assignmentsOf block).reverse.find? fun a => a.key == key).map fun a =>
          coerce key a.value) ∧
      ∀ value, (read text).manifest.get? dependenciesKey = some value →
        ∃ items, value = .list items := by
  have hentries : (read text).manifest.entries =
      (ofEntries ((assignmentsOf block).map Assignment.entry)).entries := by
    rw [read_of_block h, entries_ofEvents, entriesOf_eventsOf]
  have hget (key : String) : (read text).manifest.get? key =
      ((assignmentsOf block).reverse.find? fun a => a.key == key).map fun a =>
        coerce key a.value := by
    rw [get?, hentries]
    refine (get?_ofEntries _ key).trans ?_
    rw [← List.map_reverse, List.find?_map, Option.map_map]
    rfl
  refine ⟨?_, hget, ?_⟩
  · rw [hentries, keys_ofEntries, List.map_map]
    rfl
  · intro value hvalue
    rw [hget] at hvalue
    obtain ⟨a, _, rfl⟩ := Option.map_eq_some_iff.mp hvalue
    exact coerce_dependencies a.value

theorem read_assignments_of_open_list :
    let body := "# dependencies = x\n# tags = [\n#   a = b,\n# ]\n# dependencies = ['y']\n"
    let text := "# /// script\n" ++ body ++ "# ///"
    block? text.toList = some body.toList ∧
      (read text).manifest.entries.keys = ["dependencies", "tags"] ∧
      (read text).manifest.get? "tags" = some (.list ["a = b"]) ∧
      (read text).manifest.get? "dependencies" = some (.list ["y"]) := by
  intro body text
  have hblock : block? text.toList = some body.toList := by decide +kernel
  obtain ⟨hkeys, hvalues, _⟩ := read_assignments hblock
  refine ⟨hblock, hkeys.trans ?_, (hvalues "tags").trans ?_, (hvalues "dependencies").trans ?_⟩
  all_goals decide +kernel

end Scriptorium.Manifest
