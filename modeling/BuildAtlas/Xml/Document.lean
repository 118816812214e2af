import BuildAtlas.Xml.Token

/-!
# BuildAtlas.Xml.Document

The element tree of an XML document.

Tokens are nested by a stack of open elements. A document is refused when tags do not match, when
a qualifier is not declared, when an element has one attribute twice, or when there is not exactly
one element at the top. Of an element the tree keeps the name without its qualifier, the attributes
that have no qualifier, and the children.
-/

namespace BuildAtlas.Xml

/-- A part of an element's content. -/
inductive Node
  | text (content : String)
  /-- A comment or a processing instruction, which parts the texts around it. -/
  | aside
  | element (name : String) (attributes : List (String × String)) (children : List Node)

mutual

/-- Decides whether two parts are the same. -/
def Node.decideEq : (node other : Node) → Decidable (node = other)
  | .text content, .text content' => decidable_of_iff (content = content') (by simp)
  | .aside, .aside => isTrue rfl
  | .element name attributes children, .element name' attributes' children' =>
    have := Node.decideEqList children children'
    decidable_of_iff (name = name' ∧ attributes = attributes' ∧ children = children') (by simp)
  | .text _, .aside => isFalse nofun
  | .text _, .element .. => isFalse nofun
  | .aside, .text _ => isFalse nofun
  | .aside, .element .. => isFalse nofun
  | .element .., .text _ => isFalse nofun
  | .element .., .aside => isFalse nofun

/-- Decides whether two contents are the same. -/
def Node.decideEqList : (nodes others : List Node) → Decidable (nodes = others)
  | [], [] => isTrue rfl
  | node :: rest, node' :: rest' =>
    have := Node.decideEq node node'
    have := Node.decideEqList rest rest'
    decidable_of_iff (node = node' ∧ rest = rest') (by simp)
  | [], _ :: _ => isFalse nofun
  | _ :: _, [] => isFalse nofun

end

instance : DecidableEq Node := Node.decideEq

/-- An element of a document. -/
structure Element where
  name : String
  /-- The attributes without a qualifier. -/
  attributes : List (String × String)
  children : List Node
  deriving DecidableEq

namespace Element

/-- The element as part of another one's content. -/
def toNode (element : Element) : Node :=
  .element element.name element.attributes element.children

/-- The value of an attribute. -/
def attribute? (element : Element) (name : String) : Option String :=
  element.attributes.lookup name

/-- The element that a node is. -/
def ofNode? : Node → Option Element
  | .element name attributes children => some { name, attributes, children }
  | _ => none

/-- The child elements. -/
def elements (element : Element) : List Element :=
  element.children.filterMap ofNode?

/-- The child elements with a name. -/
def elementsNamed (element : Element) (name : String) : List Element :=
  element.elements.filter (·.name == name)

/-- The text that the content begins with. -/
def text? (element : Element) : Option String :=
  match element.children with
  | .text content :: _ => some content
  | _ => none

/-- The text that the first child element with a name begins with. -/
def childText? (element : Element) (name : String) : Option String :=
  (element.elements.find? (·.name == name)).bind text?

end Element

/-! ### Nesting -/

/-- An element that is still open. -/
structure Frame where
  name : Name
  attributes : List (String × String)
  scope : Scope
  /-- The content so far, last part first. -/
  content : List Node

namespace Frame

/-- The element of a frame. -/
def element (frame : Frame) : Element where
  name := frame.name.base
  attributes := frame.attributes
  children := frame.content.reverse

/-- Adds a part that is no text. -/
def add (frame : Frame) (node : Node) : Frame :=
  { frame with content := node :: frame.content }

/-- Adds a text, which continues one right before it. -/
def addText (frame : Frame) (text : String) : Frame :=
  match frame.content with
  | .text before :: rest => { frame with content := .text (before ++ text) :: rest }
  | _ => frame.add (.text text)

/-- Opens the element of a tag where the qualifiers of `outer` are in force. -/
def ofTag (outer : Scope) (tag : Tag) : Except Stop Frame := do
  let scope := tag.declared ++ outer
  let named := tag.attributes.filter (!·.isDeclaration)
  Attribute.checkAll scope [] named
  let qualifier := tag.name.qualifier
  if qualifier == "" || (scope.lookup qualifier).isSome then
    let plain := named.filter (·.name.qualifier == "")
    pure {
      name := tag.name
      scope
      attributes := plain.map fun attr => (attr.name.base, attr.value)
      content := [] }
  else stopAt (.unknownQualifier qualifier) tag.start

end Frame

/-- A document read in part. -/
structure Reading where
  /-- The open elements, innermost first. -/
  frames : List Frame := []
  /-- The element at the top, once it is closed. -/
  root : Option Element := none

namespace Reading

/-- Puts a whole element at its place. -/
def close (reading : Reading) (element : Element) : Reading :=
  match reading.frames with
  | [] => { reading with root := some element }
  | frame :: frames => { reading with frames := frame.add element.toNode :: frames }

/-- Puts a part of the content, if an element is open. -/
def put (reading : Reading) (change : Frame → Frame) : Reading :=
  match reading.frames with
  | [] => reading
  | frame :: frames => { reading with frames := change frame :: frames }

/-- The reading after one more token. -/
def step (reading : Reading) : Token → Except Stop Reading
  | .unfinished => .ok reading
  | .aside => .ok (reading.put (·.add .aside))
  | .text content => .ok (reading.put (·.addText content))
  | .closing name start =>
    match reading.frames with
    | [] => .ok reading
    | frame :: frames =>
      if frame.name = name then .ok ({ reading with frames }.close frame.element)
      else stopAt (.mismatchedTag frame.name name) start
  | .opening tag isWhole => do
    let frame ← Frame.ofTag ((reading.frames.head?.map (·.scope)).getD []) tag
    if isWhole then pure (reading.close frame.element)
    else pure { reading with frames := frame :: reading.frames }

/-- The token in front of a text, and the text after it, or nothing at the end of the document.
Outside of all elements blanks do not count. -/
def next? (reading : Reading) (cs : List Char) : Except Stop (Option (Token × List Char)) :=
  match reading.frames, cs with
  | [], cs =>
    match skipSpaces cs with
    | [] => .ok none
    | cs => some <$> Token.outside reading.root.isSome cs
  | _ :: _, [] => .ok none
  | _ :: _, cs => some <$> Token.inside cs

/-- The reading after at most `n` more tokens. -/
def run : Nat → Reading → List Char → Except Stop Reading
  | 0, reading, _ => .ok reading
  | n + 1, reading, cs => do
    match ← reading.next? cs with
    | none => pure reading
    | some (token, rest) => run n (← reading.step token) rest

/-- The element at the top of a document that is read to its end. -/
def finish (reading : Reading) : Except Stop Element :=
  match reading.frames, reading.root with
  | [], some root => .ok root
  | [], none => stopAt .noRoot []
  | _ :: _, _ => stopAt .unclosedRoot []

end Reading

/-- The element at the top of the document that consists of these characters. -/
def read (cs : List Char) : Except Stop Element := do
  let body ← if (skip? "<?xml " cs).isSome then declaration (cs.drop 5) else pure cs
  (← Reading.run (body.length + 1) {} body).finish

/-- The element at the top of a document. -/
def parse (document : String) : Except Fault Element :=
  (read document.toList).mapError (.ofStop document.toList)

end BuildAtlas.Xml
