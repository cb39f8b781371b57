import TensorJit.Function.Stored

/-!
# Files for inspection

Functions are dumped to files below a directory, which is made if need be. A tree of files is
all that matters of a file system: which places are directories, and the text of each file. A
path is what is written between slashes; the name `.` and the empty name lead nowhere, but they
count for the length of the path. A file is written by going along the directories of its path
from the root:

| what the next name is     | what happens                |
| ------------------------- | --------------------------- |
| `.` or empty              | nothing                     |
| `..`                      | back to the directory above |
| a directory               | into it                     |
| a file, or too long       | the write fails             |
| anything else             | a directory is made of it   |

The root has directories above it, too; what is written there is kept, but not below the root.

**A write that fails part-way leaves the directories that it has made**, and they are in the way
of a later file of their name. Only a path that can name no place at all, because of a null
character or its length, is refused before the first directory is made; and the path of the
directory may be short enough where that of the file in it is not.
-/

namespace TensorJit

/-- A path, as the names that are written between its slashes. -/
abbrev FilePath := List String

namespace FilePath

/-- The names of a path that is written with slashes. -/
def ofText (text : String) : FilePath := (splitSlashes text.toList).map String.ofList
where
  /-- The stretches between slashes. -/
  splitSlashes : List Char → List (List Char)
    | [] => [[]]
    | '/' :: rest => [] :: splitSlashes rest
    | c :: rest =>
      match splitSlashes rest with
      | [] => [[c]]
      | name :: names => (c :: name) :: names

/-- The path of a file in a directory: a slash is written between them unless the directory ends
with one, or nothing is written for it. -/
def ofFile (directory file : String) : FilePath :=
  let names := ofText directory
  (if names.getLast? = some "" then names.dropLast else names) ++ ofText file

/-- Whether a name leads nowhere. -/
def isBlank (name : String) : Bool := name == "" || name == "."

/-- The text of a path, without the names that lead nowhere. -/
def text (path : FilePath) : String := "/".intercalate (path.filter (!isBlank ·))

/-- The path of the directory that a file is in, up to the last name that leads somewhere. -/
def directory (path : FilePath) : FilePath := (path.dropLast.reverse.dropWhile isBlank).reverse

/-- Whether a place is the root or a directory that has the root below it. -/
def isAbove (place : FilePath) : Bool := place.all (· == "..")

/-- Whether a place is the root or below it. -/
def isBelow (place : FilePath) : Bool := place.head? != some ".."

/-- The place that a name leads to from a directory. -/
def enter (place : FilePath) (name : String) : FilePath :=
  if isBlank name then place
  else if name = ".." && !place.isAbove then place.dropLast
  else place ++ [name]

/-- The place that a path leads to from the root. -/
def resolve (path : FilePath) : FilePath := path.foldl enter []

/-- Whether a name is short enough for a file or a directory: it has at most 255 bytes. -/
def fits (name : String) : Bool := name.utf8ByteSize ≤ 255

/-- How many bytes a path has as it is written. -/
def size (path : FilePath) : Nat := ("/".intercalate path).utf8ByteSize

/-- Whether a path can name a place: it has no null character, and at most 4079 bytes, which
with the 16 of the way to the root make 4095. -/
def canName (path : FilePath) : Bool :=
  path.size ≤ 4079 && path.all fun name => !name.toList.contains (Char.ofNat 0)

end FilePath

/-- Directories and files, at places seen from a root. -/
structure FileTree where
  /-- The directories, without the root and those above it. -/
  directories : List FilePath
  /-- The files and their texts. -/
  files : List (FilePath × String)
  deriving DecidableEq, Repr, Inhabited

namespace FileTree

/-- The tree with nothing below the root. -/
def empty : FileTree := ⟨[], []⟩

/-- The text of a file. -/
def text? (t : FileTree) (path : FilePath) : Option String := t.files.lookup path.resolve

/-- The files below the root and their texts. -/
def filesBelow (t : FileTree) : List (FilePath × String) := t.files.filter (·.1.isBelow)

/-- Whether a place is a directory; the root is one, as is each place above it. -/
def isDirectory (t : FileTree) (place : FilePath) : Bool :=
  place.isAbove || t.directories.contains place

/-- The tree with a file set. -/
def setFile (t : FileTree) (path : FilePath) (text : String) : FileTree :=
  { t with files := (path.resolve, text) :: t.files.filter (·.1 ≠ path.resolve) }

/-- Goes from a directory along names and makes the directories that are missing. Says whether
it got to the end, and what the tree is then. -/
def makeDirectories (t : FileTree) (place : FilePath) : List String → Bool × FileTree
  | [] => (true, t)
  | name :: names =>
    let next := place.enter name
    if t.isDirectory next then t.makeDirectories next names
    else if (t.files.lookup next).isSome || !FilePath.fits name then (false, t)
    else { t with directories := next :: t.directories }.makeDirectories next names

/-- The tree with a file written, and whether it was; its directory is made first. -/
def write (t : FileTree) (path : FilePath) (text : String) : Bool × FileTree :=
  let made := t.makeDirectories [] path.directory
  if !path.directory.canName then (false, t)
  else if made.1 && path.canName && path.getLast?.all FilePath.fits &&
      !made.2.isDirectory path.resolve then
    (true, made.2.setFile path text)
  else (false, made.2)

end FileTree

/-- The path of the dump of a unit's function. -/
def dumpPath (directory unit : String) : FilePath :=
  .ofFile directory ("function_" ++ unit ++ ".json")

/-- The path of the dump of a function that did not compile. -/
def errorDumpPath (directory unit : String) : FilePath :=
  .ofFile directory ("function_error_" ++ unit ++ ".json")

/-- Dumps a function, and says whether that succeeded. -/
def FileTree.dump (t : FileTree) (path : FilePath) (f : Function) : Bool × FileTree :=
  t.write path f.toText

end TensorJit
