import BuildAtlas.FileTree
import BuildAtlas.Json.Reader
import BuildAtlas.Xml.Fault

/-!
# BuildAtlas.Error

Why an operation on build metadata fails, and how that is worded.
-/

namespace BuildAtlas

/-- Why an operation fails. -/
inductive Error
  /-- A file cannot be read. -/
  | file (fault : FileTree.Fault)
  | pathNotFound (path : String)
  | invalidJson (path : String) (fault : Json.Fault)
  | invalidXml (path : String) (fault : Xml.Fault)
  /-- An XML document does not begin with the element that makes it one of its kind. -/
  | wrongRoot (path : String) (expected : String)
  | unknownConfiguration (name : String)
  | projectNotFound (fullName : String)
  | notImplemented (operation : String)
  deriving Repr, DecidableEq

/-- The wording of an error. -/
def Error.message : Error → String
  | .file fault => "IO error: " ++ fault.message
  | .pathNotFound path => "Path does not exist: " ++ path
  | .invalidJson path _ => "Failed to parse JSON document " ++ path
  | .invalidXml path _ => "Failed to parse XML document " ++ path
  | .wrongRoot path expected =>
    "Failed to parse XML document " ++ path ++ ": root element is not <" ++ expected ++ ">"
  | .unknownConfiguration name => "Unknown configuration: " ++ name
  | .projectNotFound fullName => "Project not found: " ++ fullName
  | .notImplemented operation => "Operation is not implemented: " ++ operation

/-- The wording of an error with what is wrong with the text of an XML document. -/
def Error.explanation : Error → String
  | .invalidXml path fault => (Error.invalidXml path fault).message ++ ": " ++ fault.message
  | e => e.message

end BuildAtlas
