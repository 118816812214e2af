import BuildAtlas.Text.Blank
import BuildAtlas.Text.Digit
import BuildAtlas.Text.Split

/-!
# BuildAtlas.VisualStudio.Guid

The identifiers by which solutions refer to projects.

An identifier has 32 hexadecimal digits. It is written plain, or with hyphens, and the hyphenated
form may stand in braces or after `urn:uuid:`. `projectKey` gives the same key to all spellings of
one identifier, and compares whatever is none by its own text.
-/

namespace BuildAtlas.VisualStudio

/-- An identifier of 32 hexadecimal digits, kept in lower case. -/
structure Guid where
  digits : List Char
  deriving Repr, DecidableEq

namespace Guid

/-- Does the text have only hexadecimal digits? -/
def isHex (cs : List Char) : Bool :=
  cs.all fun c => (Text.hexValue? c).isSome

/-- Reads 32 digits. -/
def ofPlain? (cs : List Char) : Option Guid :=
  if cs.length = 32 && isHex cs then some ⟨cs.map Char.toLower⟩ else none

/-- The lengths of the groups that hyphens part. -/
def groupLengths : List Nat := [8, 4, 4, 4, 12]

/-- Reads five groups of digits with hyphens between them. -/
def ofHyphenated? (cs : List Char) : Option Guid :=
  let groups := cs.splitOn '-'
  if groups.map List.length = groupLengths && groups.all isHex then
    some ⟨groups.flatten.map Char.toLower⟩
  else none

/-- What may stand before a hyphenated identifier. -/
def urn : List Char := "urn:uuid:".toList

/-- Reads an identifier in any of its spellings. -/
def ofChars? (cs : List Char) : Option Guid :=
  if (cs.take urn.length).map Char.toLower = urn then ofHyphenated? (cs.drop urn.length)
  else
    match cs with
    | '\x7b' :: rest =>
      if rest.getLast? = some '\x7d' then ofHyphenated? rest.dropLast else none
    | _ => (ofPlain? cs).or (ofHyphenated? cs)

/-- The hyphenated spelling. -/
def text (guid : Guid) : String :=
  let ds := guid.digits
  let groups :=
    [ds.take 8, (ds.drop 8).take 4, (ds.drop 12).take 4, (ds.drop 16).take 4, ds.drop 20]
  .ofList (['-'].intercalate groups)

end Guid

/-- The key of a project: the hyphenated spelling of its identifier, or the text in lower case when
that is no identifier. Only ASCII letters change their case. -/
def projectKey (raw : String) : String :=
  let text := (Text.trim raw).toList
  match Guid.ofChars? text with
  | some guid => guid.text
  | none => .ofList (text.map Char.toLower)

end BuildAtlas.VisualStudio
