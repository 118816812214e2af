import BuildAtlas.Text.Digit
import BuildAtlas.Text.Split
import BuildAtlas.Xml.Fault

/-!
# BuildAtlas.Xml.Text

The characters that stand for the text of a document: references are replaced, and line ends become
one kind.

A reference names a character by its number or by one of five names. What a reference stands for
is never taken as part of a line end, and neither is a character right after it.
-/

namespace BuildAtlas.Xml

/-- A character of a document's text. -/
inductive Piece
  /-- A character that stands for itself. -/
  | plain (c : Char)
  /-- A character that a reference stands for. -/
  | reference (c : Char)
  deriving Repr, DecidableEq

/-- The character of a code point; a number that is none gives the replacement character. -/
def charOf (code : Nat) : Char :=
  if code.isValidChar then Char.ofNat code else '\uFFFD'

/-- The number that digits write, when there are any and it fits into 32 bits. -/
def digitsOf? (radix : Nat) (value? : Char → Option Nat) (digits : List Char) : Option Nat := do
  if digits.isEmpty then none
  let values ← digits.mapM value?
  let n := values.foldl (fun n digit => n * radix + digit) 0
  if n < UInt32.size then some n else none

/-- What a reference stands for, from what is written between its ampersand and its semicolon. -/
def referenced? (body : List Char) : Option Char :=
  match body with
  | '#' :: 'x' :: digits => (charOf <$> digitsOf? 16 Text.hexValue? digits).filter isChar
  | '#' :: digits => (charOf <$> digitsOf? 10 Text.decimalValue? digits).filter isChar
  | _ =>
    match String.ofList body with
    | "quot" => some '"'
    | "amp" => some '&'
    | "apos" => some '\''
    | "lt" => some '<'
    | "gt" => some '>'
    | _ => none

/-- Is this a name without regard to colons? -/
def isPlainName (cs : List Char) : Bool :=
  cs.head?.any isNameStart && cs.all isNameChar

/-- A reference without its ampersand, with what follows it. -/
def reference (cs : List Char) : Except Cause (List Piece) :=
  match Text.breakOn? [';'] cs with
  | none => .error .malformedReference
  | some (body, after) =>
    match referenced? body with
    | some c => .ok (.reference c :: after.map .plain)
    | none =>
      if isPlainName body then .error (.unknownReference (.ofList body))
      else .error .malformedReference

/-- The characters of a text with its references replaced, from what stands behind its ampersands.
The document goes on with `start` where the text begins, and there are `before` characters before
the next ampersand. -/
def references (start : List Char) (before : Nat) : List (List Char) → Except Stop (List Piece)
  | [] => .ok []
  | cs :: rest =>
    match reference cs with
    | .ok found => do pure (found ++ (← references start (before + 1 + cs.length) rest))
    | .error cause => stopAt cause (start.drop before)

/-- The characters of a text with its references replaced. The document goes on with `start` where
the text begins. -/
def pieces (start raw : List Char) : Except Stop (List Piece) :=
  match raw.splitOn '&' with
  | [] => .ok []
  | first :: rest => do pure (first.map .plain ++ (← references start first.length rest))

/-! ### Text between tags -/

/-- Adds a character to a text that is listed last character first, and settles a carriage return
before it as a line end. -/
def pushLine (text : List Char) (c : Char) (isLast : Bool) : List Char :=
  let ending := if isLast && c == '\r' then '\n' else c
  match text with
  | '\r' :: before => if c == '\n' then '\n' :: before else ending :: '\n' :: before
  | _ => ending :: text

/-- The text of the pieces, after one that is listed last character first. After a reference the
next character is taken as it is. -/
def settleLines (text : List Char) (afterReference : Bool) : List Piece → List Char
  | [] => text.reverse
  | .reference c :: rest => settleLines (c :: text) true rest
  | .plain c :: rest =>
    if afterReference then settleLines (c :: text) false rest
    else settleLines (pushLine text c rest.isEmpty) false rest

/-- The text that stands between two tags. -/
def contentText (start raw : List Char) : Except Stop String := do
  pure (.ofList (settleLines [] false (← pieces start raw)))

/-- The text of a section in which nothing is a reference. -/
def sectionText (raw : List Char) : String :=
  .ofList (settleLines [] false (raw.map .plain))

/-! ### Attribute values -/

/-- The value of an attribute from its pieces: each blank becomes a space, and a carriage return
with the line feed after it becomes one. -/
def settleValue : List Piece → List Char
  | [] => []
  | .reference c :: rest => c :: settleValue rest
  | .plain c :: rest =>
    if c == '\r' && rest.head? == some (.plain '\n') then settleValue rest
    else (if isSpace c then ' ' else c) :: settleValue rest

/-- The value of an attribute. -/
def attributeValue (start raw : List Char) : Except Stop String := do
  pure (.ofList (settleValue (← pieces start raw)))

end BuildAtlas.Xml
