import Fieldwise.CommandLine

/-!
The program: it gives the files under the path of a command to that command and prints what it
says. Colours are for terminals only.
-/

namespace Fieldwise

/-- Adds what is on the way of a path: directories, and files of which only the names matter. -/
def FileTree.along (t : FileTree) (path : String) : IO FileTree := do
  let names := Text.pieces '/' path
  let mut t := t
  for n in List.range names.length do
    let front := "/".intercalate (names.take n)
    match ← (IO.FS.realPath front).toBaseIO with
    | .ok place =>
      t := if ← place.isDir then { t with directories := t.directories ++ [pathWay front] }
        else { t with files := t.files.put (pathWay front) "" }
    | .error _ => pure ()
  return t

/-- Adds a file, or a directory and all that is in it. -/
partial def FileTree.gather (t : FileTree) (path : String) : IO FileTree := do
  match ← (IO.FS.realPath path).toBaseIO with
  | .error _ => return t
  | .ok place =>
    if ← place.isDir then
      let mut t := { t with directories := t.directories ++ [pathWay path] }
      for entry in ← place.readDir do
        t ← t.gather (joinPath path [entry.fileName])
      return t
    else return { t with files := t.files.put (pathWay path) (← IO.FS.readFile path) }

end Fieldwise

open Fieldwise CommandLine

def main (args : List String) : IO UInt32 := do
  let coloured ← (← IO.getStdout).isTty
  let request := Request.ofArguments false args
  let t ← match request with
    | .run command => (← FileTree.along {} command.path).gather command.path
    | _ => pure {}
  match request.answer coloured t with
  | .ok outcome =>
    IO.print outcome.text
    return outcome.code.toUInt32
  | .error failure =>
    IO.eprintln (failureText coloured failure)
    return 1
