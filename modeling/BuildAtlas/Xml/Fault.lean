import BuildAtlas.Text.Report
import BuildAtlas.Xml.Name

/-!
# BuildAtlas.Xml.Fault

Why a text is no XML document, where that shows, and how it is worded.

A document is read from its start to its end, and the first thing that is wrong ends the reading. A
reader sees only what is still to be read, so it tells a place by what follows it; `Fault.ofStop`
turns this into a line and a column.
-/

namespace BuildAtlas.Xml

/-- A place in a document. Lines and columns count from one. -/
structure Place where
  line : Nat
  column : Nat
  deriving Repr, DecidableEq

namespace Place

/-- The place after the characters that a document begins with. -/
def behind (before : List Char) : Place where
  line := before.count '\n' + 1
  column := (before.reverse.takeWhile (· != '\n')).length + 1

/-- A place as it stands in a message. -/
def shown (place : Place) : String :=
  toString place.line ++ ":" ++ toString place.column

end Place

/-- What is wrong with a document. -/
inductive Cause
  /-- The qualifier `xml` is declared to mean something else than it does. -/
  | wrongNamespace
  /-- The namespace of the qualifier `xml` is declared for another one. -/
  | reservedNamespace
  /-- The namespace of declarations is declared. -/
  | declarationNamespace
  /-- An element has the qualifier of declarations. -/
  | declarationQualifier
  | repeatedQualifier (qualifier : String)
  | unknownQualifier (qualifier : String)
  | repeatedAttribute (base : String)
  /-- A tag ends another element than the one that is open. -/
  | mismatchedTag (opened closed : Name)
  | unknownReference (name : String)
  | malformedReference
  /-- No element stands at the top. -/
  | noRoot
  | unclosedRoot
  /-- The declaration of the document stands somewhere else than at its start. -/
  | misplacedDeclaration
  /-- The document declares its type, which is not supported. -/
  | documentType
  | invalidName
  /-- A character that no document may hold. -/
  | foreignChar (c : Char)
  /-- Another character than the one that has to stand here. -/
  | otherChar (expected found : Char)
  /-- Another character than one of the kind that has to stand here. -/
  | otherKind (expected : String) (found : Char)
  /-- A text that has to stand here and does not. -/
  | missing (expected : String)
  /-- A comment holds two dashes or ends in one. -/
  | dashesInComment
  /-- A text holds the end of a section. -/
  | sectionEnd
  /-- What stands here is no part of a document. -/
  | unknownToken
  | endOfText
  deriving Repr, DecidableEq

namespace Cause

/-- The character with the code of a character's first byte, which stands for the character in a
message. -/
def firstByte (c : Char) : Char :=
  let n := c.toNat
  if n < 0x80 then c
  else if n < 0x800 then .ofNat (0xC0 + n / 0x40)
  else if n < 0x10000 then .ofNat (0xE0 + n / 0x1000)
  else .ofNat (0xF0 + n / 0x40000)

/-- The wording of a cause that shows at a place. -/
def message (place : String) : Cause → String
  | wrongNamespace => "'xml' namespace prefix mapped to wrong URI at " ++ place
  | reservedNamespace => "the 'xml' namespace URI is used for not 'xml' prefix at " ++ place
  | declarationNamespace =>
    "the 'xmlns' URI is used at " ++ place ++ ", but it must not be declared"
  | declarationQualifier => "the 'xmlns' prefix is used at " ++ place ++ ", but it must not be"
  | repeatedQualifier qualifier =>
    "namespace '" ++ qualifier ++ "' at " ++ place ++ " is already defined"
  | unknownQualifier qualifier =>
    "an unknown namespace prefix '" ++ qualifier ++ "' at " ++ place
  | repeatedAttribute base => "attribute '" ++ base ++ "' at " ++ place ++ " is already defined"
  | mismatchedTag opened closed =>
    "expected '" ++ opened.written ++ "' tag, not '" ++ closed.written ++ "' at " ++ place
  | unknownReference name => "unknown entity reference '" ++ name ++ "' at " ++ place
  | malformedReference => "malformed entity reference at " ++ place
  | noRoot => "the document does not have a root node"
  | unclosedRoot => "the root node was opened but never closed"
  | misplacedDeclaration => "unexpected XML declaration at " ++ place
  | documentType => "XML with DTD detected"
  | invalidName => "invalid name token at " ++ place
  | foreignChar c =>
    "a non-XML character '" ++ .ofList (Text.reportChar c) ++ "' found at " ++ place
  | otherChar expected found =>
    "expected '" ++ expected.toString ++ "' not '" ++ (firstByte found).toString ++ "' at " ++ place
  | otherKind expected found =>
    "expected " ++ expected ++ " not '" ++ (firstByte found).toString ++ "' at " ++ place
  | missing expected => "expected '" ++ expected ++ "' at " ++ place
  | dashesInComment => "comment at " ++ place ++ " contains '--'"
  | sectionEnd => "']]>' at " ++ place ++ " is not allowed inside a character data"
  | unknownToken => "unknown token at " ++ place
  | endOfText => "unexpected end of stream"

end Cause

/-- Why the reading of a document ends before the document does. -/
structure Stop where
  cause : Cause
  /-- What follows the place where the cause shows. -/
  rest : List Char
  deriving Repr, DecidableEq

/-- Ends the reading at the place that is followed by these characters. -/
def stopAt {α : Type} (cause : Cause) (rest : List Char) : Except Stop α :=
  .error { cause, rest }

/-- Why a text is no document. -/
structure Fault where
  cause : Cause
  place : Place
  deriving Repr, DecidableEq

namespace Fault

/-- The fault of a document whose reading has stopped. -/
def ofStop (document : List Char) (stop : Stop) : Fault where
  cause := stop.cause
  place := .behind (document.take (document.length - stop.rest.length))

/-- The wording of a fault. -/
def message (fault : Fault) : String :=
  fault.cause.message fault.place.shown

end Fault

end BuildAtlas.Xml
