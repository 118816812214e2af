import BuildAtlas.Error
import BuildAtlas.Project

/-!
# BuildAtlas.Imported

What importing one document gives, and what the importers have in common.
-/

namespace BuildAtlas

/-- What one document describes. -/
structure Imported where
  projects : List Project := []
  /-- The configuration names; formats without configurations have none. -/
  configurations : List String := []
  deriving DecidableEq

namespace Imported

/-- The directory below a root in which generated build files lie. -/
def buildFiles : String := "BuildFiles"

/-- The name by which projects refer to the document that describes them. -/
def container (path : String) : String :=
  (Path.fileName? path).getD ""

/-- Does the file name have one of these extensions? -/
def hasListedExtension (extensions : List String) (path : String) : Bool :=
  match Path.extension? path with
  | some extension => extensions.contains extension
  | none => false

/-- Imports the text of a document. A document that is not there describes nothing. -/
def ofDocument (tree : FileTree) (path : String) (read : String → Except Error Imported) :
    Except Error Imported :=
  if tree.has path then
    match tree.readText path with
    | .ok text => read text
    | .error fault => .error (.file fault)
  else .ok {}

end Imported

end BuildAtlas
