import BuildAtlas.Path
import BuildAtlas.SortedMap

/-!
# BuildAtlas.FileTree

The files and directories that a run can see.

A tree is a value: it lists directories and files with their contents, and names one directory as
the current one. Paths are walked name by name as a file system walks them, so a walk through a
file or through a missing directory fails even when the path leads back out of it. Names and paths
can also be too long to be walked, and a path with a NUL names nothing. A scan of the same tree
always gives the same answer.
-/

namespace BuildAtlas

/-- The names that lead from the top of the tree to an entry, outermost first. -/
abbrev Location := List String

/-- Files and directories, seen from a current directory. -/
structure FileTree where
  /-- The current directory. -/
  current : Location := []
  /-- Directories; the directories above them are understood. -/
  directories : List Location := []
  /-- Files with their contents; the directory of each is among the directories. -/
  files : List (Location × ByteArray) := []

namespace FileTree

/-- Why a file cannot be used. -/
inductive Fault
  | notFound
  | notDirectory
  | isDirectory
  | nameTooLong
  | nameWithNul
  | notText
  deriving Repr, DecidableEq

/-- The system's wording of a fault. -/
def Fault.message : Fault → String
  | .notFound => "No such file or directory (os error 2)"
  | .notDirectory => "Not a directory (os error 20)"
  | .isDirectory => "Is a directory (os error 21)"
  | .nameTooLong => "File name too long (os error 36)"
  | .nameWithNul => "file name contained an unexpected NUL byte"
  | .notText => "stream did not contain valid UTF-8"

/-- What stands at a location. -/
inductive Entry
  | file (content : ByteArray)
  | directory

/-- The entry at a location. -/
def find? (tree : FileTree) (location : Location) : Option Entry :=
  match tree.files.find? (·.1 == location) with
  | some (_, content) => some (.file content)
  | none =>
    if (tree.current :: tree.directories).any location.isPrefixOf then some .directory
    else none

/-! ### Walking -/

/-- The most bytes that a name may take. -/
def maxNameSize : Nat := 255

/-- The most bytes that a path may take. -/
def maxPathSize : Nat := 4095

/-- One step of a walk, which only a directory allows. -/
def step (tree : FileTree) (location : Location) (piece : String) : Except Fault Location :=
  match tree.find? location with
  | none => .error .notFound
  | some (.file _) => .error .notDirectory
  | some .directory =>
    if Path.isIdle piece then .ok location
    else if piece == ".." then .ok location.dropLast
    else if maxNameSize < piece.utf8ByteSize then .error .nameTooLong
    else .ok (location ++ [piece])

/-- Walks along pieces from where a path begins. -/
def walk (tree : FileTree) (path : String) (pieces : List String) : Except Fault Location :=
  if path.toList.contains '\x00' then .error .nameWithNul
  else if path == "" then .error .notFound
  else if maxPathSize < path.utf8ByteSize then .error .nameTooLong
  else pieces.foldlM tree.step (if Path.isAnchored path then [] else tree.current)

/-- The location that a path names. Nothing need stand there; the directories on the way must. -/
def locate (tree : FileTree) (path : String) : Except Fault Location :=
  tree.walk path (Path.pieces path)

/-- The entry that a path names. -/
def lookup (tree : FileTree) (path : String) : Except Fault Entry := do
  match tree.find? (← tree.locate path) with
  | some entry => .ok entry
  | none => .error .notFound

/-! ### Questions -/

/-- Does the path name anything? -/
def has (tree : FileTree) (path : String) : Bool :=
  (tree.lookup path).isOk

/-- Does the path name a file? -/
def hasFile (tree : FileTree) (path : String) : Bool :=
  match tree.lookup path with
  | .ok (.file _) => true
  | _ => false

/-- Does the path name a directory? -/
def hasDirectory (tree : FileTree) (path : String) : Bool :=
  match tree.lookup path with
  | .ok .directory => true
  | _ => false

/-- The content of a file. -/
def read (tree : FileTree) (path : String) : Except Fault ByteArray := do
  match ← tree.lookup path with
  | .file content => .ok content
  | .directory => .error .isDirectory

/-- The content of a file that holds UTF-8. -/
def readText (tree : FileTree) (path : String) : Except Fault String := do
  match String.fromUTF8? (← tree.read path) with
  | some text => .ok text
  | none => .error .notText

theorem has_of_readText_eq_ok {tree : FileTree} {path text : String}
    (h : tree.readText path = .ok text) : tree.has path = true := by
  unfold has
  cases hentry : tree.lookup path with
  | ok entry => rfl
  | error fault => simp [readText, read, hentry, bind, Except.bind] at h

/-- The files directly inside a location, by name. -/
def filesAt (tree : FileTree) (location : Location) : SortedMap String ByteArray :=
  .ofList (tree.files.filterMap fun (place, content) =>
    match Text.after? location place with
    | some [name] => some (name, content)
    | _ => none)

/-- The files directly inside a directory that have the extension, in the order of their names.
Whatever is no directory holds no files. -/
def filesWithExtension (tree : FileTree) (directory extension : String) : List String :=
  match tree.locate directory with
  | .error _ => []
  | .ok location =>
    if tree.hasDirectory directory then
      ((tree.filesAt location).keys.map (Path.join directory)).filter
        (Path.extension? · == some extension)
    else []

/-! ### Changes -/

/-- The tree with a directory at a location, and with those above it. -/
def addDirectory (tree : FileTree) (location : Location) : FileTree :=
  { tree with directories := tree.directories ++ [location] }

/-- The tree without what stands at a location or below it. The directory around it stays. -/
def removeAt (tree : FileTree) (location : Location) : FileTree :=
  { tree with
    directories :=
      location.dropLast :: tree.directories.filter (!location.isPrefixOf ·)
    files := tree.files.filter (!location.isPrefixOf ·.1) }

/-- Removes what a path names, a directory with all that is in it, and tells whether that worked. A
directory that is named by `.` cannot go itself and is only emptied. One that is named by `..` is
emptied too, and as the path to it is gone with that, it counts as removed. -/
def remove (tree : FileTree) (path : String) : FileTree × Bool :=
  match tree.locate path with
  | .error _ => (tree, false)
  | .ok location =>
    let emptied := (tree.removeAt location).addDirectory location
    match tree.find? location, (Path.innerPieces path).getLast? with
    | none, _ => (tree, false)
    | some .directory, some "." => (emptied, false)
    | some .directory, some ".." => (emptied, true)
    | some _, _ => (tree.removeAt location, true)

/-- The tree with a file at a location. -/
def putFile (tree : FileTree) (location : Location) (content : ByteArray) : FileTree :=
  { tree with
    directories := tree.directories ++ [location.dropLast]
    files := tree.files.filter (·.1 != location) ++ [(location, content)] }

/-- Opens a file for appending, making it where it is missing, and gives its location. A path that
ends in a slash names a directory, whatever stands there. -/
def openFile (tree : FileTree) (path : String) : Except Fault (FileTree × Location) := do
  if path.toList.getLast? == some '/' then
    let _ ← tree.walk path ((Path.innerPieces path).dropLast ++ ["."])
    .error .isDirectory
  else
    let location ← tree.locate path
    match tree.find? location with
    | some .directory => .error .isDirectory
    | some (.file _) => .ok (tree, location)
    | none => .ok (tree.putFile location .empty, location)

/-- The tree with a text at the end of a file. Where no file is, nothing changes. -/
def append (tree : FileTree) (location : Location) (text : String) : FileTree :=
  { tree with
    files := tree.files.map fun file =>
      (file.1, if file.1 = location then file.2 ++ text.toUTF8 else file.2) }

end FileTree

end BuildAtlas
