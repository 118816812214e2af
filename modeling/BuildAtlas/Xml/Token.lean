import BuildAtlas.Xml.Namespace
import BuildAtlas.Xml.Text

/-!
# BuildAtlas.Xml.Token

The tags, texts and asides of an XML document, one after the other.

A token is found without regard to how elements nest: a comment, a section and a tag end at the
first text that can end them. What is found in a token is checked in the order in which it stands
there, so the first thing that is wrong is the one that is told.
-/

namespace BuildAtlas.Xml

/-- A tag that begins an element. -/
structure Tag where
  name : Name
  /-- The document from the name on. -/
  start : List Char
  attributes : List Attribute
  /-- The qualifiers that the attributes declare. -/
  declared : Scope
  deriving Repr, DecidableEq

/-- A part of a document. -/
inductive Token
  | text (content : String)
  /-- A comment or a processing instruction. -/
  | aside
  /-- A tag that begins an element; the flag tells whether it is a whole element. -/
  | opening (tag : Tag) (isWhole : Bool)
  /-- A tag that ends an element, and the document from the tag on. -/
  | closing (name : Name) (start : List Char)
  /-- A tag in which the document ends. -/
  | unfinished
  deriving Repr, DecidableEq

/-! ### Parts of tokens -/

/-- What follows `start`. -/
def skip? (start : String) (cs : List Char) : Option (List Char) :=
  Text.after? start.toList cs

/-- What follows `start`, which has to stand here. -/
def skip (start : String) (cs : List Char) : Except Stop (List Char) :=
  match skip? start cs with
  | some rest => .ok rest
  | none => stopAt (.missing start) cs

/-- What follows a character that has to stand here. -/
def expect (c : Char) : List Char → Except Stop (List Char)
  | [] => stopAt .endOfText []
  | d :: rest => if c = d then .ok rest else stopAt (.otherChar c d) (d :: rest)

/-- Checks that the characters of `part`, which a text begins with, may stand in a document. -/
def checkChars (part cs : List Char) : Except Stop Unit :=
  if part.all isChar then .ok ()
  else
    match cs.dropWhile isChar with
    | [] => .ok ()
    | c :: rest => stopAt (.foreignChar c) (c :: rest)

/-- What precedes `stop`, which has to be characters of a document, and what follows it. -/
def takeUpTo (stop : String) (cs : List Char) : Except Stop (List Char × List Char) :=
  match Text.breakOn? stop.toList cs with
  | some (before, rest) => do
    checkChars before cs
    pure (before, rest)
  | none => do
    checkChars cs cs
    stopAt (.missing stop) []

/-- The qualified name in front of a text, and the text after it. -/
def takeName (cs : List Char) : Except Stop (Name × List Char) :=
  match Name.ofChars? (cs.takeWhile isNameChar) with
  | some name => .ok (name, cs.dropWhile isNameChar)
  | none => stopAt .invalidName cs

/-! ### Comments, instructions and sections -/

/-- The token of a comment. It holds no two dashes and does not end in one. -/
def comment (cs : List Char) : Except Stop (Token × List Char) := do
  let (body, rest) ← takeUpTo "-->" (cs.drop "<!--".length)
  if (Text.breakOn? ['-', '-'] body).isSome || body.getLast? == some '-' then
    stopAt .dashesInComment cs
  else pure (.aside, rest)

/-- The token of a processing instruction. The declaration of the document is none. -/
def instruction (cs : List Char) : Except Stop (Token × List Char) := do
  let start := cs.drop "<?".length
  if (skip? "xml " start).isSome then stopAt .misplacedDeclaration cs
  else if start.head?.any isNameStart then
    let (_, rest) ← takeUpTo "?>" (skipSpaces (start.dropWhile isNameChar))
    pure (.aside, rest)
  else stopAt .invalidName start

/-- The token of a section in which nothing is markup. -/
def characterSection (cs : List Char) : Except Stop (Token × List Char) := do
  let (body, rest) ← takeUpTo "]]>" (cs.drop "<![CDATA[".length)
  pure (.text (sectionText body), rest)

/-- The token of the text in front of the next tag. -/
def textRun (cs : List Char) : Except Stop (Token × List Char) := do
  let raw := cs.takeWhile (· != '<')
  let rest := cs.dropWhile (· != '<')
  checkChars raw cs
  if (Text.breakOn? [']', ']', '>'] raw).isSome then stopAt .sectionEnd cs
  else pure (.text (← contentText cs raw), rest)

/-! ### Tags -/

/-- An attribute as it is written. -/
structure RawAttribute where
  name : Name
  /-- What stands between the quotes. -/
  raw : List Char
  /-- The document from the first quote on, but without it. -/
  start : List Char
  deriving Repr, DecidableEq

/-- The attribute in front of a text as it is written, and the text after it. The value stands in
single or double quotes. -/
def takeRawAttribute (cs : List Char) : Except Stop (RawAttribute × List Char) := do
  let (name, cs) ← takeName cs
  let cs ← expect '=' (skipSpaces cs)
  match skipSpaces cs with
  | [] => stopAt .endOfText []
  | mark :: cs =>
    if mark == '"' || mark == '\'' then
      let raw := cs.takeWhile fun c => c != mark && c != '<'
      checkChars raw cs
      pure ({ name, raw, start := cs }, ← expect mark (cs.drop raw.length))
    else stopAt (.otherKind "a quote" mark) (mark :: cs)

/-- The attribute in front of a text, and the text after it. -/
def takeAttribute (cs : List Char) : Except Stop (Attribute × List Char) := do
  let (found, rest) ← takeRawAttribute cs
  pure ({ name := found.name, value := ← attributeValue found.start found.raw, start := cs }, rest)

/-- The rest of a tag, with at most `n` attributes after those found; blanks precede each of
them. -/
def tagRest : Nat → Tag → List Char → Except Stop (Token × List Char)
  | _, _, [] => .ok (.unfinished, [])
  | 0, _, cs => .ok (.unfinished, cs)
  | n + 1, tag, c :: cs =>
    match skipSpaces (c :: cs) with
    | [] => stopAt .endOfText []
    | '/' :: rest => do pure (.opening tag true, ← expect '>' rest)
    | '>' :: rest => .ok (.opening tag false, rest)
    | d :: rest =>
      if isSpace c then do
        let (found, rest) ← takeAttribute (d :: rest)
        let declared ← found.declare tag.declared
        tagRest n { tag with attributes := tag.attributes ++ [found], declared } rest
      else stopAt (.otherKind "a whitespace" d) (d :: rest)

/-- The token of a tag that begins an element, from behind the angle bracket on. -/
def openingTag (cs : List Char) : Except Stop (Token × List Char) := do
  let (name, rest) ← takeName cs
  if name.qualifier == "xmlns" then stopAt .declarationQualifier cs
  else tagRest (rest.length + 1) { name, start := cs, attributes := [], declared := [] } rest

/-- The token of a tag that ends an element. -/
def closingTag (cs : List Char) : Except Stop (Token × List Char) := do
  let (name, rest) ← takeName (cs.drop "</".length)
  pure (.closing name cs, ← expect '>' (skipSpaces rest))

/-! ### Tokens -/

/-- The token in front of a text inside an element, and the text after it. -/
def Token.inside (cs : List Char) : Except Stop (Token × List Char) :=
  match cs with
  | '<' :: '!' :: '-' :: '-' :: _ => comment cs
  | '<' :: '!' :: _ =>
    if (skip? "<![CDATA[" cs).isSome then characterSection cs else stopAt .unknownToken cs
  | '<' :: '?' :: _ => instruction cs
  | '<' :: '/' :: _ => closingTag cs
  | ['<'] => stopAt .unknownToken cs
  | '<' :: rest => openingTag rest
  | _ => textRun cs

/-- The token in front of a text outside of all elements, and the text after it. After the element
at the top only asides follow. -/
def Token.outside (hasRoot : Bool) (cs : List Char) : Except Stop (Token × List Char) :=
  match cs with
  | '<' :: '!' :: '-' :: '-' :: _ => comment cs
  | '<' :: '?' :: _ => instruction cs
  | '<' :: rest =>
    if hasRoot then stopAt .unknownToken cs
    else if (skip? "<!DOCTYPE" cs).isSome then stopAt .documentType cs
    else openingTag rest
  | _ => stopAt .unknownToken cs

/-! ### The declaration -/

/-- The blanks after a part of the declaration, unless its end follows. -/
def declarationSpaces (cs : List Char) : Except Stop (List Char) :=
  match cs with
  | [] => .ok []
  | c :: _ =>
    if isSpace c then .ok (skipSpaces cs)
    else if (skip? "?>" cs).isSome then .ok cs
    else stopAt (.otherKind "a whitespace" c) cs

/-- What follows an attribute of the declaration, if that is the one in front of the text. -/
def declarationAttribute (name : String) (cs : List Char) : Except Stop (List Char) :=
  if (skip? name cs).isSome then do
    let (_, rest) ← takeRawAttribute cs
    pure rest
  else .ok cs

/-- What follows the declaration, from behind `<?xml` on: a version, and perhaps an encoding and
whether the document stands alone. -/
def declaration (cs : List Char) : Except Stop (List Char) := do
  let cs ← declarationSpaces cs
  let _ ← skip "version" cs
  let cs ← declarationSpaces (← declarationAttribute "version" cs)
  let cs ←
    if (skip? "encoding" cs).isSome then declarationSpaces (← declarationAttribute "encoding" cs)
    else pure cs
  let cs ← declarationAttribute "standalone" cs
  skip "?>" (skipSpaces cs)

end BuildAtlas.Xml
