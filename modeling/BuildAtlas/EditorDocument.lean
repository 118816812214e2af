/-!
# BuildAtlas.EditorDocument

The documents that an editor reads: build tasks, launch entries and compiler properties.
-/

namespace BuildAtlas

/-- A task that the editor runs. -/
structure BuildTask where
  label : String
  kind : String
  command : String
  deriving Repr, DecidableEq

/-- A program that the editor starts under a debugger. -/
structure LaunchEntry where
  name : String
  kind : String
  request : String
  program : String
  cwd : String
  /-- The label of the task that runs first. -/
  preLaunchTask : String
  deriving Repr, DecidableEq

/-- What the editor knows about the compiler of a project. -/
structure CompilerProperties where
  name : String
  includePath : List String
  defines : List String
  cStandard : String
  cppStandard : String
  deriving Repr, DecidableEq

/-- The document of build tasks. -/
structure TasksDocument where
  version : String
  tasks : List BuildTask
  deriving Repr, DecidableEq

/-- The document of launch entries. -/
structure LaunchDocument where
  version : String
  entries : List LaunchEntry
  deriving Repr, DecidableEq

/-- The document of compiler properties. -/
structure PropertiesDocument where
  configurations : List CompilerProperties
  version : UInt32
  deriving Repr, DecidableEq

end BuildAtlas
