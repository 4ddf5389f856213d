/-
The program.

It loads what its arguments name, runs, and writes what comes of the run. What the run does is
decided elsewhere.
-/

import Scriptorium.Catalog.Timestamp
import Scriptorium.CommandLine.Run
import Std.Time.DateTime.Timestamp

namespace Scriptorium.CommandLine

/-- Loads a file, or a directory with all that is in it. -/
partial def loadTree (path : String) : IO FileTree := do
  let place := (← IO.currentDir) / path
  if ← place.isDir then
    let mut entries := []
    for entry in ← place.readDir do
      entries := (entry.fileName, ← loadTree (path ++ "/" ++ entry.fileName)) :: entries
    return .directory entries
  else return .ofBytes (← IO.FS.readBinFile place)

/-- Loads what is at a path, and of the directories on the way that they are there. What stands at
the root of the files has no name, and what has been loaded stays. -/
def loadPath (disk : Disk) (path : String) : IO Disk := do
  let pieces := Text.splitAt '/' path.toList
  let mut disk := disk
  for n in List.range pieces.length do
    let part := ['/'].intercalate (pieces.take (n + 1))
    let place := (← IO.currentDir) / String.ofList part
    if part ≠ [] && (← place.pathExists) then
      if n + 1 < pieces.length && (← place.isDir) then
        unless disk.hasDirectory part do disk := disk.place part (.directory [])
      else disk := disk.place part (← loadTree (String.ofList part))
  return disk

/-- Reads the standard input to its end. -/
partial def readInput (done : ByteArray) : IO ByteArray := do
  let more ← (← IO.getStdin).read 65536
  if more.isEmpty then return done else readInput (done ++ more)

/-- Loads what a run finds. -/
def load (words : List String) : IO Surroundings := do
  let here := (Text.splitAt '/' (← IO.currentDir).toString.toList).map String.ofList
  let names := here.filter (· ≠ "")
  let mut disk : Disk := ⟨(FileTree.directory []).set names (.directory []), names⟩
  let mut input := some ""
  if let .ok (.run arguments) := read words then
    for path in arguments.config.toList ++ arguments.request.paths do
      disk ← loadPath disk path
    if arguments.request.readsInput then
      input := String.fromUTF8? (← readInput .empty)
  let time := (← Std.Time.Timestamp.now).val
  return ⟨disk, input, Catalog.timestamp time.second.val.toNat time.nano.val.toNat⟩

/-- Writes the file of an outcome. -/
def store (path text : String) : IO Unit := do
  let parent := (Path.parentText? path.toList).getD []
  if parent ≠ [] then IO.FS.createDirAll (String.ofList parent)
  IO.FS.writeFile path text

end Scriptorium.CommandLine

open Scriptorium.CommandLine in
/-- Runs the program with its arguments. -/
def main (words : List String) : IO UInt32 := do
  let outcome := run (← load words) words
  if let some (path, text) := outcome.written then store path text
  IO.print outcome.output
  IO.eprint outcome.complaints
  return outcome.status.toUInt32
