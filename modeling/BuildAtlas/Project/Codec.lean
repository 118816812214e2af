import BuildAtlas.CompileFlags
import BuildAtlas.Json.Record
import BuildAtlas.Project
import BuildAtlas.Selection

/-!
# BuildAtlas.Project.Codec

Projects and their parts as JSON.
-/

namespace BuildAtlas

open Json (Codec Fields Absent)
open Json.Codec (string bool list map record enumeration KeyText)

/-- Groups as keys and as values are known by their shown names. -/
def FileGroup.keyText : KeyText FileGroup := .ofNames all name

/-- A group as JSON. -/
def FileGroup.codec : Codec FileGroup := enumeration keyText

/-- A kind as JSON. -/
def TargetKind.codec : Codec TargetKind := enumeration (.ofNames all name)

/-- Compiler flags as JSON. -/
def CompileFlags.codec : Codec CompileFlags :=
  record
    (.cons "include_dirs" (list string) .refused <|
      .cons "defines" (list string) .refused <|
      .cons "c_std" string .refused <|
      .cons "cpp_std" string .refused .nil)
    (fun f => (f.includeDirs, f.defines, f.cStandard, f.cppStandard, ()))
    (fun (includeDirs, defines, cStandard, cppStandard, _) =>
      { includeDirs, defines, cStandard, cppStandard })

/-- A selection as JSON. -/
def Selection.codec : Codec Selection :=
  record
    (.cons "active" string .refused <| .cons "available" (list string) .refused .nil)
    (fun s => (s.active, s.available, ()))
    (fun (active, available, _) => { active, available })

namespace Project

/-- Values by configuration name as JSON. -/
def perConfiguration {α : Type} (codec : Codec α) : Codec (PerConfiguration α) :=
  map .text codec

/-- A project as JSON. -/
def codec : Codec Project :=
  record
    (.cons "name" string .refused <|
      .cons "full_name" string .refused <|
      .cons "root_dir" (perConfiguration string) .refused <|
      .cons "binary_path" (perConfiguration string) .refused <|
      .cons "project_type" (perConfiguration TargetKind.codec) .refused <|
      .cons "files" (map FileGroup.keyText (list string)) .refused <|
      .cons "all_files" (list string) .refused <|
      .cons "defines" (perConfiguration (list string)) .refused <|
      .cons "include_dirs" (perConfiguration (list string)) .refused <|
      .cons "compile_flags" (perConfiguration (list string)) .refused <|
      .cons "build_command" (perConfiguration string) .refused <|
      .cons "clean_command" (perConfiguration string) .refused <|
      .cons "c_standard" (perConfiguration string) .refused <|
      .cons "cpp_standard" (perConfiguration string) .refused <|
      .cons "read_only" bool .refused <|
      .cons "can_build" bool .refused .nil)
    (fun p => (p.name, p.fullName, p.rootDir, p.binaryPath, p.kind, p.filesByGroup, p.files,
      p.defines, p.includeDirs, p.compileFlags, p.buildCommand, p.cleanCommand, p.cStandard,
      p.cppStandard, p.isReadOnly, p.canBuild, ()))
    (fun (name, fullName, rootDir, binaryPath, kind, filesByGroup, files, defines, includeDirs,
        compileFlags, buildCommand, cleanCommand, cStandard, cppStandard, isReadOnly,
        canBuild, _) =>
      { name, fullName, rootDir, binaryPath, kind, filesByGroup, files, defines, includeDirs,
        compileFlags, buildCommand, cleanCommand, cStandard, cppStandard, isReadOnly, canBuild })

end Project

end BuildAtlas
