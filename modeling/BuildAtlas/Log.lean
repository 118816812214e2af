import BuildAtlas.FileTree
import BuildAtlas.Log.Filter
import BuildAtlas.LogSettings

/-!
# BuildAtlas.Log

A log that is being written.

The file that a log is written to is one of the files that a run can see, and it may be a document
that the run reads afterwards. So a log has the tree with it, and noting something gives a log with
another tree. The clock is looked at for each record that is kept.
-/

namespace BuildAtlas

/-- A log that is being written. -/
structure Log where
  filter : LogFilter
  /-- Is each record a JSON object? -/
  isJson : Bool
  /-- Where the file is, if the log is written to one. -/
  file : Option Location
  /-- The clock that gives each record its time. -/
  clock : Clock
  /-- The files that the run can see, the file of the log with what is written so far. -/
  tree : FileTree

namespace Log

/-- Opens the log that is asked for. -/
def ofSettings (settings : LogSettings) (clock : Clock) (tree : FileTree) :
    Except FileTree.Fault Log := do
  let log (file : Option Location) (tree : FileTree) : Log :=
    { filter := .ofText settings.level, isJson := settings.isJson, file, clock, tree }
  match settings.file with
  | none => .ok (log none tree)
  | some path =>
    let (tree, location) ← tree.openFile path
    .ok (log (some location) tree)

/-- What is written for records, each with the time that the clock shows for it. -/
def textOf (log : Log) (records : List LogRecord) : String :=
  String.join (records.mapIdx fun n record => record.text (log.clock n) log.isJson)

/-- The log after records, of which it keeps those that its filter lets through. -/
def note (log : Log) (records : List LogRecord) : Log :=
  let kept := records.filter log.filter.keeps
  { log with
    clock := log.clock.after kept.length
    tree := match log.file with
      | none => log.tree
      | some location => log.tree.append location (log.textOf kept) }

end Log

end BuildAtlas
