import BuildAtlas.Text.Blank
import BuildAtlas.Text.Split

/-!
# BuildAtlas.Path

Paths as their spelling: names separated by slashes.

Two spellings of one file are different paths here; `Path.Lexical` brings paths to one spelling. A
repeated slash, a slash at the end and a `.` between names stand for nothing when a path is taken
apart, but what remains of a path keeps its own spelling: the parent of `a//b/./c` is `a//b`. Only
the `.` that begins a relative path counts as a piece.
-/

namespace BuildAtlas.Path

open Text (dropEndWhile)

/-- What stands between the slashes; the path of an anchored file begins with an empty piece. -/
def pieces (path : String) : List String :=
  Text.splitOn '/' path

/-- The pieces without the empty ones at the end, which slashes there make. -/
def innerPieces (path : String) : List String :=
  dropEndWhile (· == "") (pieces path)

/-- The path with the given pieces. -/
def ofPieces (pieces : List String) : String :=
  "/".intercalate pieces

/-- Does the path begin at the top of the tree, with a slash? -/
def isAnchored (path : String) : Bool :=
  path.toList.head? == some '/'

/-- A piece that leads nowhere: empty, or `.`. -/
def isIdle (piece : String) : Bool :=
  piece == "" || piece == "."

/-! ### Taking apart -/

/-- The first piece, and the others up to the last one that leads somewhere. -/
def outline (path : String) : String × List String :=
  match pieces path with
  | [] => ("", [])
  | first :: rest => (first, dropEndWhile isIdle rest)

/-- The last name of the path, unless the path ends in `..` or names no file. -/
def fileName? (path : String) : Option String :=
  let (first, rest) := outline path
  let last := rest.getLast?.getD first
  if isIdle last || last == ".." then none else some last

/-- The path without its last name; the top and the empty path have no parent. -/
def parent? (path : String) : Option String :=
  let (first, rest) := outline path
  if rest.isEmpty then
    if first == "" then none else some ""
  else
    let before := dropEndWhile isIdle rest.dropLast
    if before.isEmpty && first == "" then some "/" else some (ofPieces (first :: before))

/-- The directory that holds the file, `.` for a bare name. -/
def directory (path : String) : String :=
  match parent? path with
  | none | some "" => "."
  | some parent => parent

/-- A file name cut at its last dot; a dot that begins the name does not count. -/
def stemAndExtension (name : String) : String × Option String :=
  match Text.breakOnLast? '.' name.toList with
  | none | some ([], _) => (name, none)
  | some (stem, extension) => (.ofList stem, some (.ofList extension))

/-- What follows the last dot of the file name. -/
def extension? (path : String) : Option String := do
  (stemAndExtension (← fileName? path)).2

/-! ### Putting together -/

/-- The path reached from `base`; an anchored path does not depend on it. -/
def join (base path : String) : String :=
  if isAnchored path || base == "" then path
  else if base.toList.getLast? == some '/' then base ++ path
  else base ++ "/" ++ path

/-- The path with another last name. -/
def withFileName (path name : String) : String :=
  match fileName? path with
  | some _ => join ((parent? path).getD "") name
  | none => join path name

end BuildAtlas.Path
