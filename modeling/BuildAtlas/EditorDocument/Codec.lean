import BuildAtlas.EditorDocument
import BuildAtlas.Json.Record

/-!
# BuildAtlas.EditorDocument.Codec

The editor's documents as JSON.
-/

namespace BuildAtlas

open Json (Codec Fields Absent)
open Json.Codec (string word32 list record)

/-- A task as JSON. -/
def BuildTask.codec : Codec BuildTask :=
  record
    (.cons "label" string .refused <|
      .cons "type" string .refused <|
      .cons "command" string .refused .nil)
    (fun t => (t.label, t.kind, t.command, ()))
    (fun (label, kind, command, _) => { label, kind, command })

/-- A launch entry as JSON. -/
def LaunchEntry.codec : Codec LaunchEntry :=
  record
    (.cons "name" string .refused <|
      .cons "type" string .refused <|
      .cons "request" string .refused <|
      .cons "program" string .refused <|
      .cons "cwd" string .refused <|
      .cons "preLaunchTask" string .refused .nil)
    (fun e => (e.name, e.kind, e.request, e.program, e.cwd, e.preLaunchTask, ()))
    (fun (name, kind, request, program, cwd, preLaunchTask, _) =>
      { name, kind, request, program, cwd, preLaunchTask })

/-- Compiler properties as JSON. -/
def CompilerProperties.codec : Codec CompilerProperties :=
  record
    (.cons "name" string .refused <|
      .cons "includePath" (list string) .refused <|
      .cons "defines" (list string) .refused <|
      .cons "cStandard" string .refused <|
      .cons "cppStandard" string .refused .nil)
    (fun p => (p.name, p.includePath, p.defines, p.cStandard, p.cppStandard, ()))
    (fun (name, includePath, defines, cStandard, cppStandard, _) =>
      { name, includePath, defines, cStandard, cppStandard })

/-- The document of build tasks as JSON. -/
def TasksDocument.codec : Codec TasksDocument :=
  record
    (.cons "version" string .refused <| .cons "tasks" (list BuildTask.codec) .refused .nil)
    (fun d => (d.version, d.tasks, ()))
    (fun (version, tasks, _) => { version, tasks })

/-- The document of launch entries as JSON. -/
def LaunchDocument.codec : Codec LaunchDocument :=
  record
    (.cons "version" string .refused <|
      .cons "configurations" (list LaunchEntry.codec) .refused .nil)
    (fun d => (d.version, d.entries, ()))
    (fun (version, entries, _) => { version, entries })

/-- The document of compiler properties as JSON. -/
def PropertiesDocument.codec : Codec PropertiesDocument :=
  record
    (.cons "configurations" (list CompilerProperties.codec) .refused <|
      .cons "version" word32 .refused .nil)
    (fun d => (d.configurations, d.version, ()))
    (fun (configurations, version, _) => { configurations, version })

end BuildAtlas
