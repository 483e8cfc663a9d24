import Fieldwise.Error
import Fieldwise.Table
import Fieldwise.Text.Basic

/-!
Files and directories as a value. A path is a text with names between slashes, and it is followed
from name to name: an empty name and a single point stay where they are, double points go back, and
any other name goes inside. Each of them needs a directory to start from. What a path leads to has
a place, which is the list of names on the way down from the root.
-/

namespace Fieldwise

/-- The names in a path that say something. -/
def pathNames (path : String) : List String :=
  (Text.pieces '/' path).filter fun name => name ≠ "" && name ≠ "."

/-- The place that a path names if everything on its way is there. -/
def pathWay (path : String) : List String :=
  (pathNames path).foldl (fun way name => if name = ".." then way.dropLast else way ++ [name]) []

/-- What stands after the last point in the last name, unless nothing stands before that point. -/
def extension? (path : String) : Option String := do
  let name ← (pathNames path).getLast?
  if name = ".." then none
  let (stem, ending) ← Text.splitAtLast? '.' name
  if stem = "" then none else some ending

def joinPath (directory : String) (names : List String) : String :=
  let inner := "/".intercalate names
  if directory.endsWith "/" then directory ++ inner else s!"{directory}/{inner}"

def parentPath (path : String) : String :=
  let back := (Text.pieces '/' path).reverse.dropWhile (["", "."].contains ·)
  "/".intercalate ((back.drop 1).dropWhile (["", "."].contains ·)).reverse

namespace FileFault

def notThere : FileFault := .system "No such file or directory (os error 2)"

def alreadyThere : FileFault := .system "File exists (os error 17)"

def aFile : FileFault := .system "Not a directory (os error 20)"

def aDirectory : FileFault := .system "Is a directory (os error 21)"

def tooLong : FileFault := .system "File name too long (os error 36)"

end FileFault

/-- Whether a path can be followed at all. -/
def checkPath (path : String) : Except FileFault Unit :=
  if path.toList.contains '\x00' then .error .nulCharacter
  else if 4096 ≤ path.utf8ByteSize then .error .tooLong
  else if path = "" then .error .notThere
  else .ok ()

structure FileTree where
  /-- The texts of the files, by their places. -/
  files : Table (List String) String := []
  /-- Directories that are there even if no file is in them. -/
  directories : List (List String) := []
  /-- The place from which a path is followed that does not start with a slash. -/
  workingDirectory : List String := []

namespace FileTree

def hasDirectory (t : FileTree) (way : List String) : Bool :=
  way.isEmpty || (t.directories ++ t.files.keys.map List.dropLast).any way.isPrefixOf

def start (t : FileTree) (path : String) : List String :=
  if path.startsWith "/" then [] else t.workingDirectory

/-- Follows one name. -/
def enter (t : FileTree) (way : List String) (name : String) : Except FileFault (List String) :=
  if !t.hasDirectory way then .error .aFile
  else if name = "" || name = "." then .ok way
  else if name = ".." then .ok way.dropLast
  else
    let inner := way ++ [name]
    if t.hasDirectory inner || t.files.has inner then .ok inner
    else .error (if 256 ≤ name.utf8ByteSize then .tooLong else .notThere)

def locate (t : FileTree) (path : String) : Except FileFault (List String) := do
  checkPath path
  (Text.pieces '/' path).foldlM t.enter (t.start path)

def doesExist (t : FileTree) (path : String) : Bool := (t.locate path).isOk

def isDirectory (t : FileTree) (path : String) : Bool :=
  match t.locate path with
  | .ok way => t.hasDirectory way
  | .error _ => false

def read (t : FileTree) (path : String) : Except Error String :=
  match t.locate path with
  | .error fault => .error (.fileRead path fault)
  | .ok way =>
    match t.files.get? way with
    | some text => .ok text
    | none => .error (.fileRead path .aDirectory)

/-- Follows one name, and makes a directory if nothing has that name. -/
def enterOrMake (step : FileTree × List String) (name : String) :
    Except FileFault (FileTree × List String) :=
  let (t, way) := step
  match t.enter way name with
  | .ok inner => .ok (t, inner)
  | .error fault =>
    let inner := way ++ [name]
    if fault = .notThere then .ok ({ t with directories := t.directories ++ [inner] }, inner)
    else .error fault

/-- Makes all directories on a path that are not there. -/
def makeDirectories (t : FileTree) (path : String) : Except FileFault FileTree :=
  if path = "" || t.doesExist path then .ok t
  else do
    checkPath path
    let (t, way) ← (pathNames path).foldlM enterOrMake (t, t.start path)
    if t.hasDirectory way then .ok t else .error .alreadyThere

def write (t : FileTree) (path text : String) : Except FileFault FileTree := do
  checkPath path
  let names := Text.pieces '/' path
  let name := names.getLastD ""
  let way ← names.dropLast.foldlM t.enter (t.start path)
  match t.enter way name with
  | .ok inner =>
    if t.hasDirectory inner then .error .aDirectory
    else .ok { t with files := t.files.put inner text }
  | .error fault =>
    if fault = .notThere then .ok { t with files := t.files.put (way ++ [name]) text }
    else .error fault

/-- Puts a file in place, and before that the directories on its way, which stay even if the file
cannot be written. -/
def store (t : FileTree) (path text : String) : FileTree × Except Error Unit :=
  let parent := parentPath path
  match t.makeDirectories parent with
  | .error fault => (t, .error (.fileWrite parent fault))
  | .ok t =>
    match t.write path text with
    | .error fault => (t, .error (.fileWrite path fault))
    | .ok t => (t, .ok ())

/-- The ways of all files in a directory, from there on, in order of their names. -/
def filesIn (t : FileTree) (directory : String) : List (List String) :=
  match t.locate directory with
  | .error _ => []
  | .ok way =>
    ((t.files.keys.filter way.isPrefixOf).map (·.drop way.length)).mergeSort
      fun a b => !List.lex b a

end FileTree

end Fieldwise
