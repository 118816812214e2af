import BuildAtlas.Xml.Fault

/-!
# BuildAtlas.Xml.Namespace

What the qualifiers of names mean.

An attribute whose qualifier is `xmlns` declares a qualifier for its element and for what stands in
it. Two namespaces are reserved: the one that the qualifier `xml` always means, and the one of the
declarations.
-/

namespace BuildAtlas.Xml

/-- The namespace that the qualifier `xml` always means. -/
def xmlNamespace : String := "http://www.w3.org/XML/1998/namespace"

/-- The namespace of declarations, which nothing may be declared to be. -/
def declarationNamespace : String := "http://www.w3.org/2000/xmlns/"

/-- The qualifiers in force, innermost first, with the namespaces that they mean. -/
abbrev Scope := List (String × String)

/-- An attribute with its value. -/
structure Attribute where
  name : Name
  value : String
  /-- The document from the attribute on. -/
  start : List Char
  deriving Repr, DecidableEq

namespace Attribute

/-- Does the attribute declare a qualifier or the namespace of plain names? -/
def isDeclaration (attr : Attribute) : Bool :=
  attr.name.qualifier == "xmlns" || attr.name.base == "xmlns"

/-- What is wrong with the attribute as a declaration, after those that its element made before. -/
def declarationFault? (attr : Attribute) (declared : Scope) : Option Cause :=
  let isReserved := attr.value == xmlNamespace
  if attr.name.qualifier == "xmlns" then
    if attr.value == declarationNamespace then some .declarationNamespace
    else if attr.name.base == "xml" && !isReserved then some .wrongNamespace
    else if attr.name.base != "xml" && isReserved then some .reservedNamespace
    else if (declared.lookup attr.name.base).isSome then
      some (.repeatedQualifier attr.name.base)
    else none
  else if attr.name.base == "xmlns" then
    if isReserved then some .reservedNamespace
    else if attr.value == declarationNamespace then some .declarationNamespace
    else none
  else none

/-- The qualifiers that an element has declared with one more attribute. -/
def declare (attr : Attribute) (declared : Scope) : Except Stop Scope :=
  match attr.declarationFault? declared with
  | some cause => stopAt cause attr.start
  | none =>
    if attr.name.qualifier == "xmlns" && attr.name.base != "xml" then
      .ok (declared ++ [(attr.name.base, attr.value)])
    else .ok declared

/-- The namespace of an attribute; one without a qualifier has none. -/
def namespaceIn (attr : Attribute) (scope : Scope) : Except Stop (Option String) :=
  let qualifier := attr.name.qualifier
  if qualifier == "" then .ok none
  else if qualifier == "xml" then .ok (some xmlNamespace)
  else
    match scope.lookup qualifier with
    | some found => .ok (some found)
    | none => stopAt (.unknownQualifier qualifier) attr.start

/-- Checks the attributes of an element: their qualifiers have to be declared, and no two may have
one namespace and one name. Those checked before are listed. -/
def checkAll (scope : Scope) (before : List (Option String × String)) :
    List Attribute → Except Stop Unit
  | [] => .ok ()
  | attr :: rest => do
    let name := (← attr.namespaceIn scope, attr.name.base)
    if before.contains name then stopAt (.repeatedAttribute attr.name.base) attr.start
    else checkAll scope (name :: before) rest

end Attribute

end BuildAtlas.Xml
