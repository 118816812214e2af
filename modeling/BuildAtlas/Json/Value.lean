import BuildAtlas.Text.Digit

/-!
# BuildAtlas.Json.Value

JSON values and their text.

A value keeps the members of an object in their order and a number as it is written. Text comes in
two layouts: `compact` without blanks, and `pretty` with a line for each item and two spaces for
each level. A string is quoted with as few escapes as the format allows: the quote, the backslash
and the control characters below U+0020.
-/

namespace BuildAtlas.Json

/-- A JSON value. -/
inductive Value
  | null
  | bool (b : Bool)
  /-- A number, as it is written. -/
  | number (literal : String)
  | string (s : String)
  | array (items : List Value)
  /-- An object with its members in order. -/
  | object (members : List (String × Value))
  deriving Inhabited

namespace Value

/-- A natural number as a value. -/
def ofNat (n : Nat) : Value :=
  .number (.ofList (Text.decimal n))

/-- A list of texts as a value. -/
def ofStrings (texts : List String) : Value :=
  .array (texts.map .string)

/-- The text of a value that is a string. -/
def text? : Value → Option String
  | .string s => some s
  | _ => none

end Value

/-! ### Quoting -/

/-- A character as it stands inside quotes. -/
def escapeChar (c : Char) : List Char :=
  if c = '"' then ['\\', '"']
  else if c = '\\' then ['\\', '\\']
  else if 0x20 ≤ c.toNat then [c]
  else
    match c.toNat with
    | 0x08 => ['\\', 'b']
    | 0x09 => ['\\', 't']
    | 0x0A => ['\\', 'n']
    | 0x0C => ['\\', 'f']
    | 0x0D => ['\\', 'r']
    | n => ['\\', 'u', '0', '0', Text.hexDigit (n / 16), Text.hexDigit (n % 16)]

/-- A text in quotes. -/
def quote (s : String) : List Char :=
  '"' :: (s.toList.flatMap escapeChar ++ ['"'])

/-! ### Layouts -/

/-- How the text of a value is laid out. -/
inductive Layout
  | compact
  | pretty
  deriving Repr, DecidableEq

namespace Layout

/-- What begins a line at a level. -/
def lineStart : Layout → Nat → List Char
  | .compact, _ => []
  | .pretty, level => '\n' :: List.replicate (2 * level) ' '

/-- What stands between a key and its value. -/
def colon : Layout → List Char
  | .compact => [':']
  | .pretty => [':', ' ']

end Layout

mutual

/-- The text of a value at a level. -/
def Value.print (layout : Layout) (level : Nat) : Value → List Char
  | .null => ['n', 'u', 'l', 'l']
  | .bool true => ['t', 'r', 'u', 'e']
  | .bool false => ['f', 'a', 'l', 's', 'e']
  | .number literal => literal.toList
  | .string s => quote s
  | .array [] => ['[', ']']
  | .array (item :: items) =>
    '[' :: (layout.lineStart (level + 1) ++ item.print layout (level + 1)
      ++ printItems layout (level + 1) items ++ layout.lineStart level ++ [']'])
  | .object [] => ['{', '}']
  | .object ((key, value) :: members) =>
    '{' :: (layout.lineStart (level + 1) ++ quote key ++ layout.colon
      ++ value.print layout (level + 1) ++ printMembers layout (level + 1) members
      ++ layout.lineStart level ++ ['}'])

/-- The text of the items after the first one. -/
def printItems (layout : Layout) (level : Nat) : List Value → List Char
  | [] => []
  | item :: items =>
    ',' :: (layout.lineStart level ++ item.print layout level ++ printItems layout level items)

/-- The text of the members after the first one. -/
def printMembers (layout : Layout) (level : Nat) : List (String × Value) → List Char
  | [] => []
  | (key, value) :: members =>
    ',' :: (layout.lineStart level ++ quote key ++ layout.colon ++ value.print layout level
      ++ printMembers layout level members)

end

/-- The text of a value. -/
def Value.render (layout : Layout) (value : Value) : String :=
  .ofList (value.print layout 0)

end BuildAtlas.Json
