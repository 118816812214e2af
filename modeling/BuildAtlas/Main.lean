import BuildAtlas.CommandLine

/-!
# BuildAtlas.Main

The program: shows a run what it needs to see of the host, and does what the run decides.

The host's files are copied into a tree before the run. Which ones a scan needs depends on what
stands in others, so the tree is filled until it holds all of them.
-/

namespace BuildAtlas

open IO.FS (Stream)

/-- One step of a walk, as it goes where no link leads elsewhere. -/
def stepFrom (location : Location) (piece : String) : Location :=
  if Path.isIdle piece then location
  else if piece == ".." then location.dropLast
  else location ++ [piece]

/-- The location that a path names. -/
def locationFrom (current : Location) (path : String) : Location :=
  (Path.pieces path).foldl stepFrom (if Path.isAnchored path then [] else current)

/-- Copies what stands at a location into a tree, unless the tree has it: a directory, a file, or
nothing. The content of a file is copied when it is needed. -/
def observe (tree : FileTree) (location : Location) (withContent : Bool) : IO FileTree := do
  let path := "/" ++ "/".intercalate location
  if (tree.find? location).isSome && !withContent then pure tree
  else
    try
      let metadata ← (← IO.FS.realPath path).metadata
      match metadata.type with
      | .dir => pure (tree.addDirectory location)
      | .file =>
        let content ← if withContent then IO.FS.readBinFile path else pure .empty
        pure (tree.putFile location content)
      | _ => pure tree
    catch _ => pure tree

/-- Copies what a path names, and everything on the way to it. -/
def observePath (tree : FileTree) (path : String) (withContent : Bool) : IO FileTree := do
  let start := if Path.isAnchored path then [] else tree.current
  let (tree, location) ← (Path.pieces path).foldlM (fun (tree, location) piece => do
    let location := stepFrom location piece
    pure (← observe tree location false, location)) (tree, start)
  observe tree location withContent

/-- Copies a directory with the files directly inside, without their content. -/
def observeListing (tree : FileTree) (path : String) : IO FileTree := do
  let tree ← observePath tree path false
  let location := locationFrom tree.current path
  try
    let entries ← (← IO.FS.realPath ("/" ++ "/".intercalate location)).readDir
    entries.toList.foldlM (fun tree entry =>
      observe tree (location ++ [entry.fileName]) false) tree
  catch _ => pure tree

/-- Copies the files that a scan needs until it needs no others. -/
partial def observeNeeded (tree : FileTree) (root : String) (seen : List String) : IO FileTree := do
  match (Workspace.neededFiles tree root).filter (!seen.contains ·) with
  | [] => pure tree
  | paths =>
    let tree ← paths.foldlM (fun tree path => observePath tree path true) tree
    observeNeeded tree root (seen ++ paths)

/-- The number of the process that runs. -/
def processId : IO Nat := do
  try
    let status ← IO.FS.readFile "/proc/self/stat"
    pure (((Text.words status).head?.bind String.toNat?).getD 0)
  catch _ => pure 0

/-- The time, as the process that runs has it noted. -/
def currentTime : IO Time := do
  try
    let noted := (← (← IO.FS.realPath "/proc/self").metadata).modified
    pure ⟨noted.sec.toNat * 1000000000 + noted.nsec.toNat⟩
  catch _ => pure .start

/-- The environment variables that a run looks at. -/
def variableNames : List String :=
  ["MSBUILD_PATH", "RUST_LOG", "CSE_LOG_FILE", "CSE_LOG_UNIQUE", "CSE_LOG_JSON"]

/-- What a run with these arguments sees. -/
def observeHost (arguments : List String) : IO CommandLine.Host := do
  let assigned ← variableNames.filterMapM fun name => do
    pure ((← IO.getEnv name).map fun value => (name, value))
  let environment := Environment.ofList assigned
  let current := locationFrom [] (← IO.currentDir).toString
  let processTag := LogSettings.processTag (← processId)
  let tree : FileTree := { current }
  -- what the run notes is read by nobody else, so its clock may stand still
  let now ← currentTime
  let host : CommandLine.Host := { environment, tree, processTag, clock := fun _ => now }
  match CommandLine.parse arguments with
  | .error _ => pure host
  | .ok arguments =>
    let root := CommandLine.rootOf tree arguments
    let tree ← (Workspace.listedDirectories root).foldlM observeListing tree
    let tree ← observeNeeded tree root []
    let tree ←
      match (CommandLine.logSettings host arguments).file with
      | some path => observePath tree path false
      | none => pure tree
    pure { host with tree }

end BuildAtlas

open BuildAtlas in
/-- Runs the program. -/
def main (arguments : List String) : IO UInt32 := do
  let outcome := CommandLine.run (← observeHost arguments) arguments
  match outcome.logFile with
  | some path => let _ ← IO.FS.Handle.mk path .append
  | none => pure ()
  IO.eprint outcome.faults
  IO.print outcome.output
  pure (.ofNat outcome.exitCode)
