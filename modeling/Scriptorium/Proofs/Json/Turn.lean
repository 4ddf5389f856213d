/-
What one turn of the reader of JSON texts does, one statement for each of its turns.

Only the text behind the blanks matters to a turn; a value is handed back at once when no
container is open.
-/

import Scriptorium.Json.Reader

namespace Scriptorium.Json

variable {frames : List Frame} {s rest after : List Char} {c : Char} {v : Value}

/-! ### Where a value is expected -/

theorem run_expect_string {text : Option String} (h : skipSpace s = '"' :: rest)
    (hread : readString rest = some (text, after)) :
    run .expect frames s = run (.got (.string text)) frames after := by
  rw [run]
  split <;> rename_i heq <;> rw [h] at heq <;> cases heq
  · split <;> rename_i hfound <;> rw [hread] at hfound <;> cases hfound
    rfl
  · contradiction

theorem run_expect_emptyArray (h : skipSpace s = '[' :: rest)
    (hrest : skipSpace rest = ']' :: after) :
    run .expect frames s = run (.got (.array [])) frames after := by
  rw [run]
  split <;> rename_i heq <;> rw [h] at heq <;> cases heq
  · split
    · rename_i hfound
      rw [hrest] at hfound
      cases hfound
      rfl
    · rename_i hne
      exact absurd hrest (hne after)
  · contradiction

theorem run_expect_array (h : skipSpace s = '[' :: rest)
    (hrest : skipSpace rest = c :: after) (hc : c ≠ ']') :
    run .expect frames s = run .expect (.array [] :: frames) rest := by
  rw [run]
  split <;> rename_i heq <;> rw [h] at heq <;> cases heq
  · split
    · rename_i hfound
      rw [hrest] at hfound
      cases hfound
      exact absurd rfl hc
    · rfl
  · contradiction

theorem run_expect_emptyObject (h : skipSpace s = '\x7b' :: rest)
    (hrest : skipSpace rest = '\x7d' :: after) :
    run .expect frames s = run (.got (.object [])) frames after := by
  rw [run]
  split <;> rename_i heq <;> rw [h] at heq <;> cases heq
  · split
    · rename_i hfound
      rw [hrest] at hfound
      cases hfound
      rfl
    · rename_i hne
      exact absurd hrest (hne after)
  · contradiction

theorem run_expect_object {key : Option String} (h : skipSpace s = '\x7b' :: rest)
    (hkey : readKey rest = some (key, after)) :
    run .expect frames s = run .expect (.object [] key :: frames) after := by
  rw [run]
  split <;> rename_i heq <;> rw [h] at heq <;> cases heq
  · split
    · rename_i hfound
      rw [readKey, hfound] at hkey
      cases hkey
    · split <;> rename_i hfound <;> rw [hkey] at hfound <;> cases hfound
      rfl
  · contradiction

theorem run_expect_token (h : skipSpace s = c :: rest) (hc : isTokenChar c = true)
    (htoken : token? (c :: rest.takeWhile isTokenChar) = some v) :
    run .expect frames s = run (.got v) frames (rest.dropWhile isTokenChar) := by
  rw [run]
  split <;> rename_i heq <;> rw [h] at heq <;> cases heq
  · cases hc
  · cases hc
  · cases hc
  · rw [htoken]

/-! ### Behind a value -/

theorem run_got_nil : run (.got v) [] s = some (v, s) := by
  rw [run]

variable {items : List Value} {members : List (Option String × Value)} {key : Option String}

theorem run_got_array_next (h : skipSpace s = ',' :: rest) :
    run (.got v) (.array items :: frames) s = run .expect (.array (v :: items) :: frames) rest := by
  conv => lhs; rw [run]
  split
  · rename_i heq
    rw [h] at heq
    cases heq
    rfl
  · rename_i heq
    rw [h] at heq
    cases heq
  · rename_i hcomma _
    exact absurd h (hcomma rest)

theorem run_got_array_close (h : skipSpace s = ']' :: rest) :
    run (.got v) (.array items :: frames) s =
      run (.got (.array (v :: items).reverse)) frames rest := by
  conv => lhs; rw [run]
  split
  · rename_i heq
    rw [h] at heq
    cases heq
  · rename_i heq
    rw [h] at heq
    cases heq
    rfl
  · rename_i hclose
    exact absurd h (hclose rest)

theorem run_got_object_next {next : Option String} (h : skipSpace s = ',' :: rest)
    (hkey : readKey rest = some (next, after)) :
    run (.got v) (.object members key :: frames) s =
      run .expect (.object ((key, v) :: members) next :: frames) after := by
  conv => lhs; rw [run]
  split
  · rename_i heq
    rw [h] at heq
    cases heq
    split <;> rename_i hfound <;> rw [hkey] at hfound <;> cases hfound
    rfl
  · rename_i heq
    rw [h] at heq
    cases heq
  · rename_i hcomma _
    exact absurd h (hcomma rest)

theorem run_got_object_close (h : skipSpace s = '\x7d' :: rest) :
    run (.got v) (.object members key :: frames) s =
      run (.got (.object ((key, v) :: members).reverse)) frames rest := by
  conv => lhs; rw [run]
  split
  · rename_i heq
    rw [h] at heq
    cases heq
  · rename_i heq
    rw [h] at heq
    cases heq
    rfl
  · rename_i hclose
    exact absurd h (hclose rest)

end Scriptorium.Json
