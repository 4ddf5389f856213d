/-
Manifests: what a script says about itself.

A manifest has entries and, once it is known, the source from which the script can be fetched.
Its list of dependencies is never a scalar.
-/

import Scriptorium.Manifest.Entries
import Scriptorium.Text.Blank

namespace Scriptorium

/-- What a script says about itself. -/
structure Manifest where
  entries : Manifest.Entries := .empty
  /-- Where the script can be fetched from. -/
  source : Option String := none
deriving DecidableEq

namespace Manifest

instance : Inhabited Manifest := ⟨{}⟩

/-- The key whose value is always a list. -/
def dependenciesKey : String := "dependencies"

/-- The key that names the source of a script kept elsewhere. -/
def externalSourceKey : String := "external_source"

/-! ### Inserting -/

/-- A scalar under the key of the dependencies becomes a list of one item, or of none if it is
blank. -/
def coerce (key : String) : Value → Value
  | .scalar text =>
    if key = dependenciesKey then
      .list (if Text.trim text.toList = [] then [] else [text])
    else .scalar text
  | value => value

/-- Inserts or replaces an entry. -/
def insert (m : Manifest) (key : String) (value : Value) : Manifest :=
  { m with entries := m.entries.put key (coerce key value) }

/-! ### Looking up -/

/-- The value of a key. -/
def get? (m : Manifest) (key : String) : Option Value :=
  m.entries.get? key

/-- The scalar of a key. -/
def scalar? (m : Manifest) (key : String) : Option String :=
  (m.get? key).bind Value.scalar?

/-- The list of a key. -/
def list? (m : Manifest) (key : String) : Option (List String) :=
  (m.get? key).bind Value.list?

/-- The title, if it is a scalar. -/
def title? (m : Manifest) : Option String :=
  m.scalar? "title"

/-- The description, if it is a scalar. -/
def description? (m : Manifest) : Option String :=
  m.scalar? "description"

/-- The title, or a text that stands for it. -/
def title (m : Manifest) : String :=
  m.title?.getD "Untitled Script"

/-- The description, or a text that stands for it. -/
def description (m : Manifest) : String :=
  m.description?.getD "No description provided."

/-- The dependencies, none if there is no such list. -/
def dependencies (m : Manifest) : List String :=
  (m.list? dependenciesKey).getD []

/-! ### The source -/

/-- Drops every `./` at the beginning. -/
def dropCurrent : List Char → List Char
  | '.' :: '/' :: s => dropCurrent s
  | s => s

/-- The address of a path under a base address, with one slash between them. -/
def address (baseUrl path : String) : String :=
  String.ofList
    (Text.dropRightWhile (· == '/') baseUrl.toList ++ '/' ::
      (dropCurrent path.toList).dropWhile (· == '/'))

/-- Sets the source from a base address and a path, unless there is one. -/
def resolve (m : Manifest) (baseUrl path : String) : Manifest :=
  { m with source := some (m.source.getD (address baseUrl path)) }

end Manifest

end Scriptorium
