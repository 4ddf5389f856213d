/-
The source in the report of a script.

A manifest names its source by the last assignment to the key for it, if that is a scalar. Where it
names none, the source is the address of the script under the base address, and there neither the
slashes at the end of the base nor the `./` and slashes before the path matter (`isAddress_iff`).
-/

import Scriptorium.Inspection
import Scriptorium.Proofs.Catalog.Exclusion
import Scriptorium.Proofs.Manifest.Assignment

namespace Scriptorium.Manifest

open Catalog (dotted)

variable {base rest : List Char} {baseUrl path text : String} {key : String}

/-! ### Slashes at the ends of a text -/

/-- A number of slashes. -/
def slashes (n : Nat) : List Char :=
  List.replicate n '/'

theorem isSlash_of_mem {c : Char} {n : Nat} (h : c ∈ slashes n) : (c == '/') = true :=
  beq_iff_eq.mpr (List.eq_of_mem_replicate h)

theorem dropWhile_slashes (h : rest.head? ≠ some '/') (n : Nat) :
    (slashes n ++ rest).dropWhile (· == '/') = rest :=
  Text.dropWhile_append (fun _ => isSlash_of_mem) (Text.forall_mem_beq_eq_false_iff.mpr h)

theorem dropRightWhile_slashes (s : List Char) (n : Nat) :
    Text.dropRightWhile (· == '/') (s ++ slashes n) = Text.dropRightWhile (· == '/') s := by
  rw [Text.dropRightWhile, Text.dropRightWhile, List.reverse_append,
    List.dropWhile_append_of_pos fun c hc => isSlash_of_mem (List.mem_reverse.mp hc)]

/-- Slashes before a text keep it from beginning with `./`. -/
theorem dropCurrent_slashes (h : ¬['.', '/'] <+: rest) (m n : Nat) :
    dropCurrent (dotted m (slashes n ++ rest)) = slashes n ++ rest := by
  rw [Catalog.dropCurrent_dotted]
  cases n with
  | zero => exact Catalog.dropCurrent_eq_self h
  | succ n =>
    refine Catalog.dropCurrent_eq_self ?_
    rw [slashes, List.replicate_succ, List.cons_append, List.cons_prefix_cons]
    exact fun hslash => absurd hslash.1 (by decide)

/-! ### Addresses -/

/-- A text is the address of a path under a base: the base up to the slashes at its end, a slash,
and the path behind every `./` and then every slash at its beginning. -/
inductive IsAddress : (baseUrl path url : List Char) → Prop
  | intro {base rest : List Char} (k m n : Nat) : base.getLast? ≠ some '/' →
      ¬['.', '/'] <+: slashes n ++ rest → rest.head? ≠ some '/' →
      IsAddress (base ++ slashes k) (dotted m (slashes n ++ rest)) (base ++ '/' :: rest)

theorem isAddress_iff {url : List Char} :
    IsAddress baseUrl.toList path.toList url ↔ (address baseUrl path).toList = url := by
  rw [address, String.toList_ofList]
  constructor
  · generalize baseUrl.toList = b, path.toList = p
    rintro ⟨k, m, n, hbase, hdots, hrest⟩
    have hlast := Text.forall_mem_beq_eq_false_iff.mpr hbase
    rw [dropRightWhile_slashes, Text.dropRightWhile_of_last hlast,
      Catalog.dropCurrent_dotted, Catalog.dropCurrent_eq_self hdots, dropWhile_slashes hrest]
  · rintro rfl
    obtain ⟨k, hk⟩ := Text.exists_dropRightWhile_append_replicate '/' baseUrl.toList
    obtain ⟨m, hm⟩ := Catalog.exists_eq_dotted path.toList
    obtain ⟨n, hn⟩ := Text.exists_replicate_append_dropWhile '/' (dropCurrent path.toList)
    have hbase : (Text.dropRightWhile (· == '/') baseUrl.toList).getLast? ≠ some '/' :=
      Text.forall_mem_beq_eq_false_iff.mp (Text.last_dropRightWhile _)
    have hdots := Catalog.not_isPrefix_dropCurrent path.toList
    have hrest : ((dropCurrent path.toList).dropWhile (· == '/')).head? ≠ some '/' :=
      Text.forall_mem_beq_eq_false_iff.mp (Text.head_dropWhile _)
    rw [hn] at hdots
    have haddress := IsAddress.intro k m n hbase hdots hrest
    rwa [slashes, slashes, ← hk, ← hn, ← hm] at haddress

/-- Slashes at the end of a base do not matter. -/
theorem address_slashes (baseUrl path : String) (n : Nat) :
    address (baseUrl ++ String.ofList (slashes n)) path = address baseUrl path := by
  rw [address, address, String.toList_append, String.toList_ofList, dropRightWhile_slashes]

/-- Neither do `./` and then slashes before a path. -/
theorem address_dotted (hdots : ¬['.', '/'] <+: path.toList) (hslash : path.toList.head? ≠ some '/')
    (baseUrl : String) (m n : Nat) :
    address baseUrl (String.ofList (dotted m (slashes n ++ path.toList))) =
      address baseUrl path := by
  have hplain : path.toList.dropWhile (· == '/') = path.toList := dropWhile_slashes hslash 0
  rw [address, address, String.toList_ofList, dropCurrent_slashes hdots,
    Catalog.dropCurrent_eq_self hdots, dropWhile_slashes hslash, hplain]

/-! ### The source of a manifest -/

/-- The value of the last assignment to a key in the block of a script. -/
def lastValue? (text key : String) : Option Value :=
  (block? text.toList).bind fun block =>
    ((assignmentsOf block).reverse.find? fun a => a.key == key).map Assignment.value

theorem get?_read (text key : String) :
    (read text).manifest.get? key = (lastValue? text key).map (coerce key) := by
  cases hblock : block? text.toList with
  | none =>
    rw [read, lastValue?, hblock]
    rfl
  | some block =>
    rw [read_of_block hblock, get?_ofEvents, entriesOf_eventsOf, get?_ofEntries, lastValue?, hblock,
      Option.bind_some, Option.map_map, ← List.map_reverse, List.find?_map, Option.map_map]
    rfl

/-- Under the key of the source a value is stored as it is. -/
theorem get?_externalSource (text : String) :
    (read text).manifest.get? externalSourceKey = lastValue? text externalSourceKey := by
  have hcoerce : coerce externalSourceKey = id := by
    funext value
    cases value <;> rfl
  rw [get?_read, hcoerce, Option.map_id, id]

theorem source_ofEntries (entries : List (String × Value)) : (ofEntries entries).source = none := by
  induction entries using List.reverseRecOn with
  | nil => rfl
  | append_singleton entries entry ih => rw [ofEntries_concat, insert, ih]

theorem source_withExternalSource {m : Manifest} (h : m.source = none) :
    m.withExternalSource.1.source = (m.get? externalSourceKey).bind Value.scalar? := by
  unfold withExternalSource
  split <;> simp_all [Value.scalar?]

/-- A manifest names its source by a scalar under the key for it. -/
theorem source_read (text : String) :
    (read text).manifest.source = (lastValue? text externalSourceKey).bind Value.scalar? := by
  rw [← get?_externalSource]
  cases hblock : block? text.toList with
  | none =>
    rw [read, hblock]
    rfl
  | some block =>
    rw [read_of_block hblock, get?_ofEvents]
    exact source_withExternalSource (source_ofEntries _)

/-! ### The source of a report -/

/-- The source in the report of a script. -/
def reportedSource? (config : Config) (path text : String) : Option String :=
  (Report.ofSource config path text).manifest.source

theorem reportedSource?_eq (config : Config) (path text : String) :
    reportedSource? config path text =
      ((lastValue? text externalSourceKey).bind Value.scalar?).or
        (if config.baseUrl = "" then none else some (address config.baseUrl path)) := by
  have hreport : reportedSource? config path text =
      (config.located path (read text).manifest).source := rfl
  rw [hreport, ← source_read, Config.located]
  split
  · rw [Option.or_none]
  · rw [resolve]
    cases (read text).manifest.source <;> rfl

theorem get?_located (config : Config) (path key : String) (m : Manifest) :
    (config.located path m).get? key = m.get? key := by
  unfold Config.located
  split <;> rfl

/-- **The source of a script.** It is the last value assigned to the key for it, which is also the
entry of that key, if that is a scalar; else, with a base address, the address of the path under it;
else there is none. Slashes at the end of the base address do not matter, and neither do any `./`
and then slashes before a path. -/
theorem reportedSource?_eq_some_iff (config : Config) (path text : String) :
    (∀ url, reportedSource? config path text = some url ↔
        lastValue? text externalSourceKey = some (.scalar url) ∨
          (∀ other, lastValue? text externalSourceKey ≠ some (.scalar other)) ∧
            config.baseUrl ≠ "" ∧ IsAddress config.baseUrl.toList path.toList url.toList) ∧
      (Report.ofSource config path text).manifest.get? externalSourceKey =
        lastValue? text externalSourceKey ∧
      (config.baseUrl ≠ "" → ∀ n, reportedSource?
          { config with baseUrl := config.baseUrl ++ String.ofList (slashes n) } path text =
        reportedSource? config path text) ∧
      (¬['.', '/'] <+: path.toList → path.toList.head? ≠ some '/' → ∀ m n,
        reportedSource? config (String.ofList (dotted m (slashes n ++ path.toList))) text =
          reportedSource? config path text) := by
  refine ⟨fun url => ?_, ?_, fun hbase n => ?_, fun hdots hslash m n => ?_⟩
  · rw [reportedSource?_eq, isAddress_iff, String.toList_inj]
    cases hlast : lastValue? text externalSourceKey with
    | none => by_cases hbase : config.baseUrl = "" <;> simp [hbase]
    | some value =>
      cases value with
      | scalar source => simp [Value.scalar?]
      | list items => by_cases hbase : config.baseUrl = "" <;> simp [hbase, Value.scalar?]
  · exact (get?_located config path externalSourceKey _).trans (get?_externalSource text)
  · have hlonger : config.baseUrl ++ String.ofList (slashes n) ≠ "" := by
      simp [hbase]
    rw [reportedSource?_eq, reportedSource?_eq, if_neg hbase, if_neg hlonger, address_slashes]
  · rw [reportedSource?_eq, reportedSource?_eq, address_dotted hdots hslash]

/-- A list that is assigned last is no source, so the address is taken, however base and path are
spelled. -/
theorem reportedSource?_of_reassigned :
    let text := "# /// script\n# external_source = 'a'\n# external_source = [\n#   b\n# ]\n# ///"
    let config : Config := { baseUrl := "https://example.org/" }
    lastValue? text externalSourceKey = some (.list ["b"]) ∧
      reportedSource? config "t/x.py" text = some "https://example.org/t/x.py" ∧
      reportedSource? { config with baseUrl := config.baseUrl ++ String.ofList (slashes 2) }
        "t/x.py" text = some "https://example.org/t/x.py" ∧
      reportedSource? config (String.ofList (dotted 2 (slashes 1 ++ "t/x.py".toList))) text =
        some "https://example.org/t/x.py" := by
  intro text config
  have hlast : lastValue? text externalSourceKey = some (.list ["b"]) := by decide +kernel
  have hbase : config.baseUrl ≠ "" := by decide
  obtain ⟨hsource, _, hslashes, hdotted⟩ := reportedSource?_eq_some_iff config "t/x.py" text
  have haddress : reportedSource? config "t/x.py" text = some "https://example.org/t/x.py" := by
    refine (hsource _).mpr (.inr ⟨fun other => ?_, hbase, isAddress_iff.mpr (by decide +kernel)⟩)
    rw [hlast]
    nofun
  refine ⟨hlast, haddress, (hslashes hbase 2).trans haddress, Eq.trans ?_ haddress⟩
  exact hdotted (by decide +kernel) (by decide +kernel) 2 1

end Scriptorium.Manifest
