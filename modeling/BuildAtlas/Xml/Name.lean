import BuildAtlas.Text.Range

/-!
# BuildAtlas.Xml.Name

The characters of XML documents, and qualified names.
-/

namespace BuildAtlas.Xml

/-- May the character stand in a document? -/
def isChar (c : Char) : Bool :=
  if c.toNat < 0x20 then c == '\t' || c == '\n' || c == '\r'
  else c.toNat != 0xFFFE && c.toNat != 0xFFFF

/-- The blanks between the parts of a document. -/
def isSpace (c : Char) : Bool :=
  c == ' ' || c == '\t' || c == '\n' || c == '\r'

/-- The code points that may begin a name. -/
def nameStartRanges : List (Nat × Nat) :=
  [(0x3A, 0x3A), (0x41, 0x5A), (0x5F, 0x5F), (0x61, 0x7A), (0xC0, 0xD6), (0xD8, 0xF6),
   (0xF8, 0x2FF), (0x370, 0x37D), (0x37F, 0x1FFF), (0x200C, 0x200D), (0x2070, 0x218F),
   (0x2C00, 0x2FEF), (0x3001, 0xD7FF), (0xF900, 0xFDCF), (0xFDF0, 0xFFFD), (0x10000, 0xEFFFF)]

/-- The code points that may stand in a name without being able to begin it. -/
def nameRestRanges : List (Nat × Nat) :=
  [(0x2D, 0x2E), (0x30, 0x39), (0xB7, 0xB7), (0x300, 0x36F), (0x203F, 0x2040)]

/-- May the character begin a name? -/
def isNameStart (c : Char) : Bool :=
  Text.isWithin nameStartRanges c

/-- May the character stand in a name? -/
def isNameChar (c : Char) : Bool :=
  isNameStart c || Text.isWithin nameRestRanges c

/-- A name with what stands before its colon; without a colon that is empty. -/
structure Name where
  qualifier : String := ""
  base : String
  deriving Repr, DecidableEq

/-- The name that the characters write. There is one colon at most, each part begins as a name
does, and only the part before the colon may be empty. -/
def Name.ofChars? (chars : List Char) : Option Name :=
  let begins := fun (part : List Char) => part.head?.all isNameStart
  match chars.splitOn ':' with
  | [base] =>
    if !base.isEmpty && begins base then some { base := .ofList base } else none
  | [qualifier, base] =>
    if !base.isEmpty && begins base && begins qualifier then
      some { qualifier := .ofList qualifier, base := .ofList base }
    else none
  | _ => none

/-- A name as it is written in a tag. -/
def Name.written (name : Name) : String :=
  if name.qualifier == "" then name.base else name.qualifier ++ ":" ++ name.base

/-- The text after the blanks in front. -/
def skipSpaces (cs : List Char) : List Char :=
  cs.dropWhile isSpace

end BuildAtlas.Xml
