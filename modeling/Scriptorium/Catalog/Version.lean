/-
Versions in file names: `2.py`, `v1.0.3.py`, `1.0.0-rc1.py`.

A version is numbers between points, with an optional `v` before them and an optional ending
behind a hyphen or a plus sign. Versions of one directory are ordered by their numbers, then by
the names of the files.
-/

import Scriptorium.Path
import Scriptorium.Text.Digit
import Scriptorium.Text.Numeric

namespace Scriptorium.Catalog

/-! ### Form -/

/-- What begins the ending of a version. -/
def isEndingMark (c : Char) : Bool :=
  c == '-' || c == '+'

/-- A version without the `v` before it. -/
def dropMark : List Char → List Char
  | 'v' :: s => s
  | s => s

/-- The numbers of a version, as they are written. -/
def releaseParts (stem : List Char) : List (List Char) :=
  Text.splitAt '.' (stem.takeWhile fun c => !isEndingMark c)

/-- Whether the ending of a version is absent or well formed. -/
def validEnding : List Char → Bool
  | [] => true
  | _ :: s => !s.isEmpty && s.all fun c => c.isAlphanum || c == '.'

/-- Whether a name has the form of a version. -/
def isVersion (stem : List Char) : Bool :=
  let body := dropMark stem
  (releaseParts body).all (fun part => !part.isEmpty && part.all Text.isDecimalDigit)
    && validEnding (body.dropWhile fun c => !isEndingMark c)

/-! ### Order -/

/-- The name of the last part of a path. -/
def lastName (path : List Char) : List Char :=
  ((Text.cutAtLast '/' path).map Prod.snd).getD path

/-- A file name without the ending of scripts. -/
def scriptStem (name : List Char) : List Char :=
  (Text.dropEnd? ".py".toList name).getD name

/-- The directory of a path whose file name is a version. -/
def versionDirectory? (path : List Char) : Option (List Char) :=
  (Text.cutAtLast '/' path).bind fun (directory, file) =>
    if isVersion (scriptStem file) then some directory else none

/-- The value of a number in a version; one of more than sixty-four bits, or in other digits than
those of ASCII, counts as zero. -/
def releaseNumber (part : List Char) : Nat :=
  let n := Text.ofDigits 10 part
  if !part.isEmpty && part.all Char.isDigit && n < 0x10000000000000000 then n else 0

/-- The numbers of a versioned path. -/
def release (path : List Char) : List Nat :=
  (releaseParts (dropMark (scriptStem (lastName path)))).map releaseNumber

/-- The order of number lists. -/
def numbersBefore : List Nat → List Nat → Bool
  | _, [] => false
  | [], _ :: _ => true
  | a :: s, b :: t => a < b || (a == b && numbersBefore s t)

/-- Whether the version of `a` is older than that of `b`. -/
def older (a b : List Char) : Bool :=
  numbersBefore (release a) (release b)
    || (release a == release b && Path.nameBefore (lastName a) (lastName b))

/-! ### Names -/

/-- The name from which the identifier of a script is made: that of its directory if the file is
named for a version, else that of the file. -/
def seedOf (path : List Char) : List Char :=
  let cs := Path.components path
  let stem := (Path.stem? path).getD []
  if isVersion stem then ((Path.parentOf? cs).bind Path.fileNameOf?).getD stem else stem

/-- The name from which the identifier of a script is made. -/
def identifierSeed (path : String) : String :=
  String.ofList (seedOf path.toList)

end Scriptorium.Catalog
