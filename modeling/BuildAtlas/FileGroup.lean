import BuildAtlas.Path

/-!
# BuildAtlas.FileGroup

The groups under which a project shows its files. The group of a file depends on its name only.
-/

namespace BuildAtlas

/-- A group of files, in the order in which groups are shown. -/
inductive FileGroup
  | cmake
  | header
  | java
  | object
  | source
  deriving Repr, DecidableEq

namespace FileGroup

/-- All groups, in the order in which they are shown. -/
def all : List FileGroup :=
  [cmake, header, java, object, source]

/-- The place of a group in the shown order. -/
def rank : FileGroup → Nat
  | cmake => 0
  | header => 1
  | java => 2
  | object => 3
  | source => 4

instance : Ord FileGroup := ⟨compareOn rank⟩

instance : Std.TransOrd FileGroup := inferInstanceAs (Std.TransCmp (compareOn rank))

instance : Std.LawfulEqOrd FileGroup where
  eq_of_compare {a b} h := by cases a <;> cases b <;> first | rfl | exact absurd h (by decide)

/-- The shown name of a group. -/
def name : FileGroup → String
  | cmake => "CMake Files"
  | header => "Header Files"
  | java => "Java Files"
  | object => "Object Files"
  | source => "Source Files"

/-- The group of a file, by its name and its extension. -/
def ofPath (path : String) : FileGroup :=
  if Path.fileName? path = some "CMakeLists.txt" then cmake
  else
    match Path.extension? path with
    | some "c" | some "cc" | some "cxx" | some "cpp" | some "m" | some "mm" => source
    | some "h" | some "hh" | some "hpp" | some "hxx" => header
    | some "java" => java
    | _ => object

end FileGroup

end BuildAtlas
