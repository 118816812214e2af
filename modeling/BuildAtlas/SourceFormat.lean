import BuildAtlas.CodeBlocks
import BuildAtlas.Gn.Import
import BuildAtlas.VisualStudio.Import

/-!
# BuildAtlas.SourceFormat

The formats of build metadata that can be imported.
-/

namespace BuildAtlas

/-- A format of build metadata. -/
inductive SourceFormat
  | gn
  | visualStudio
  | codeBlocks
  deriving Repr, DecidableEq

namespace SourceFormat

/-- All formats, the one that takes precedence first. -/
def all : List SourceFormat :=
  [gn, visualStudio, codeBlocks]

/-- The name of a format. -/
def name : SourceFormat → String
  | gn => "gn"
  | visualStudio => "vs"
  | codeBlocks => "codeblocks"

/-- The format with a name. -/
def ofName? (name : String) : Option SourceFormat :=
  all.find? (·.name == name)

/-- The documents of a format that lie below a root. -/
def discover (format : SourceFormat) (tree : FileTree) (root : String) : List String :=
  match format with
  | gn => Gn.discover tree root
  | visualStudio => VisualStudio.discover tree root
  | codeBlocks => CodeBlocks.discover tree root

/-- What a document of a format describes. -/
def load (format : SourceFormat) (settings : ImportSettings) (tree : FileTree) (path : String) :
    Except Error Imported :=
  match format with
  | gn => Gn.load settings tree path
  | visualStudio => VisualStudio.load settings tree path
  | codeBlocks => CodeBlocks.load tree path

/-- Would write a project back; no format supports that. -/
def save (format : SourceFormat) (_ : Project) : Except Error Unit :=
  .error (.notImplemented (format.name ++ "::save"))

/-- The first of the formats that has documents below a root, with these documents. -/
def select? (formats : List SourceFormat) (tree : FileTree) (root : String) :
    Option (SourceFormat × List String) :=
  formats.findSome? fun format =>
    match format.discover tree root with
    | [] => none
    | documents => some (format, documents)

end SourceFormat

end BuildAtlas
