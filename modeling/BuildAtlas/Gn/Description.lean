import BuildAtlas.Json.Record
import BuildAtlas.Project

/-!
# BuildAtlas.Gn.Description

The build description that GN writes: targets with their settings, and the arguments of the build.
-/

namespace BuildAtlas.Gn

/-- A target of a build description. -/
structure Target where
  kind : String := ""
  sources : List String := []
  inputs : List String := []
  defines : List String := []
  includeDirs : List String := []
  cflags : List String := []
  cflagsC : List String := []
  cflagsCc : List String := []
  cflagsObjc : List String := []
  cflagsObjcc : List String := []
  buildDir : Option String := none
  outputFile : Option String := none
  ninjaPath : Option String := none
  isMajor : Bool := false
  isCompleteStaticLibrary : Bool := false
  deriving Repr, DecidableEq

/-- A build description. -/
structure Description where
  targets : SortedMap String Target
  /-- The arguments of the build. -/
  args : SortedMap String Json.Value
  /-- The directory that paths beginning with two slashes start from. -/
  rootPath : Option String

namespace Target

/-- All flags of the compilers, each at its first occurrence. -/
def compileFlags (target : Target) : List String :=
  (target.cflags ++ target.cflagsC ++ target.cflagsCc ++ target.cflagsObjc
    ++ target.cflagsObjcc).eraseDups

/-- Is the target a project with these files? Major targets are, and so are targets of some kinds;
of others only those with files. -/
def isProject (target : Target) (files : List String) : Bool :=
  ["shared_library", "loadable_module", "executable"].contains target.kind
    || target.isMajor || target.isCompleteStaticLibrary
    || (["static_library", "source_set", "action", "action_foreach"].contains target.kind
      && !files.isEmpty)

/-- What the target makes. -/
def projectKind (target : Target) : TargetKind :=
  match target.kind with
  | "executable" => .executable
  | "shared_library" | "loadable_module" => .sharedLibrary
  | "static_library" => .staticLibrary
  | _ => .sourceSet

end Target

/-! ### JSON -/

open Json (Codec Fields Absent)
open Json.Codec (string bool list option map record value)

/-- A target as JSON. Every field may be missing. -/
def Target.codec : Codec Target :=
  record
    (.cons "type" string (.standing "") <|
      .cons "sources" (list string) (.standing []) <|
      .cons "inputs" (list string) (.standing []) <|
      .cons "defines" (list string) (.standing []) <|
      .cons "include_dirs" (list string) (.standing []) <|
      .cons "cflags" (list string) (.standing []) <|
      .cons "cflags_c" (list string) (.standing []) <|
      .cons "cflags_cc" (list string) (.standing []) <|
      .cons "cflags_objc" (list string) (.standing []) <|
      .cons "cflags_objcc" (list string) (.standing []) <|
      .cons "build_dir" (option string) (.standing none) <|
      .cons "dependency_output_file" (option string) (.standing none) <|
      .cons "ninja_path" (option string) (.standing none) <|
      .cons "is_major" bool (.standing false) <|
      .cons "complete_static_lib" bool (.standing false) .nil)
    (fun t => (t.kind, t.sources, t.inputs, t.defines, t.includeDirs, t.cflags, t.cflagsC,
      t.cflagsCc, t.cflagsObjc, t.cflagsObjcc, t.buildDir, t.outputFile, t.ninjaPath, t.isMajor,
      t.isCompleteStaticLibrary, ()))
    (fun (kind, sources, inputs, defines, includeDirs, cflags, cflagsC, cflagsCc, cflagsObjc,
        cflagsObjcc, buildDir, outputFile, ninjaPath, isMajor, isCompleteStaticLibrary, _) =>
      { kind, sources, inputs, defines, includeDirs, cflags, cflagsC, cflagsCc, cflagsObjc,
        cflagsObjcc, buildDir, outputFile, ninjaPath, isMajor, isCompleteStaticLibrary })

/-- The settings of a build as JSON: the root path alone. -/
def settingsCodec : Codec (Option String) :=
  record (.cons "root_path" (option string) (.standingInObject none) .nil)
    (fun rootPath => (rootPath, ())) (fun (rootPath, _) => rootPath)

/-- How many brackets may stand around one another in an argument. -/
def argumentDepth : Nat := 125

/-- A build description as JSON. -/
def Description.codec : Codec Description :=
  record
    (.cons "targets" (map .text Target.codec) (.standing ∅) <|
      .cons "args" (map .text (value argumentDepth)) (.standing ∅) <|
      .cons "build_settings" settingsCodec (.standing none) .nil)
    (fun d => (d.targets, d.args, d.rootPath, ()))
    (fun (targets, args, rootPath, _) => { targets, args, rootPath })

end BuildAtlas.Gn
