import BuildAtlas.Text.Digit

/-!
# BuildAtlas.Json.Reader

Readers of JSON text, which fail at the first character that cannot go on.

A reader takes characters from the front of the text and gives a value, or the `Fault` it met
first. Faults have three causes: the text ends too early, it is no JSON, or it is JSON of another
shape than the one wanted. Because typed readers work on the text itself, the first fault from left
to right is the one reported.

Every loop runs through `Reader.iterate`, whose steps each take a character at least; the number of
steps is bounded by the length of the text, so reading is total.
-/

namespace BuildAtlas.Json

/-- Why a text cannot be read as the wanted value. -/
inductive Fault
  /-- The text ends where more has to follow. -/
  | ended
  /-- The text is no JSON. -/
  | malformed
  /-- The text is JSON so far, of another shape than the wanted one. -/
  | mismatched
  deriving Repr, DecidableEq

/-- A computation that takes characters from the front of a text. -/
abbrev Reader := StateT (List Char) (Except Fault)

namespace Reader

open Text (hexValue? addDigit digitsValue)

variable {α σ : Type}

/-- The next character, which is not taken. -/
def peek? : Reader (Option Char) := fun cs => .ok (cs.head?, cs)

/-- Takes the next character. -/
def next : Reader Char
  | [] => .error .ended
  | c :: cs => .ok (c, cs)

/-- The blanks that may stand between tokens. -/
def isBlank (c : Char) : Bool :=
  c == ' ' || c == '\n' || c == '\t' || c == '\r'

/-- Takes the blanks in front. -/
def blanks : Reader Unit := fun cs => .ok ((), cs.dropWhile isBlank)

/-- Takes the blanks in front and looks at the character after them. -/
def peekToken? : Reader (Option Char) := do
  blanks
  peek?

/-- Takes the blanks in front and the character after them, which has to be `c`. -/
def token (c : Char) : Reader Unit := do
  blanks
  if (← next) == c then pure () else throw .malformed

/-- Takes exactly these characters. -/
def word : List Char → Reader Unit
  | [] => pure ()
  | c :: cs => do
    if (← next) == c then word cs else throw .malformed

/-- At most `n` steps from a state. -/
def iterateAtMost (step : σ → Reader (σ ⊕ α)) : Nat → σ → Reader α
  | 0, _ => throw .malformed
  | n + 1, state => do
    match ← step state with
    | .inl state => iterateAtMost step n state
    | .inr result => pure result

/-- Steps from a state to a result. Each step but the last has to take a character. -/
def iterate (step : σ → Reader (σ ⊕ α)) (state : σ) : Reader α := fun cs =>
  iterateAtMost step (cs.length + 1) state cs

/-- The reading of a whole text; only blanks may follow the value. -/
def run (reader : Reader α) (text : String) : Except Fault α := do
  let (value, rest) ← reader text.toList
  if rest.all isBlank then .ok value else .error .malformed

/-! ### Strings -/

/-- Takes four hexadecimal digits. With fewer than four bytes of UTF-8 left the text has ended. -/
def codeUnit : Reader Nat
  | a :: b :: c :: d :: rest =>
    match hexValue? a, hexValue? b, hexValue? c, hexValue? d with
    | some a, some b, some c, some d => .ok (((a * 16 + b) * 16 + c) * 16 + d, rest)
    | _, _, _, _ => .error .malformed
  | rest =>
    let size := rest.foldl (fun size c => size + c.utf8Size) 0
    .error (if size < 4 then .ended else .malformed)

/-- A surrogate that begins a pair. -/
def isLeading (unit : Nat) : Bool := 0xD800 ≤ unit && unit ≤ 0xDBFF

/-- A surrogate that ends a pair. -/
def isTrailing (unit : Nat) : Bool := 0xDC00 ≤ unit && unit ≤ 0xDFFF

/-- The character of a code unit; a surrogate has to be followed by the other one of its pair. -/
def pairedChar (unit : Nat) : Reader Char := do
  if isTrailing unit then throw .malformed
  else if isLeading unit then
    word ['\\', 'u']
    let second ← codeUnit
    if isTrailing second then
      pure (Char.ofNat (0x10000 + (unit - 0xD800) * 0x400 + (second - 0xDC00)))
    else throw .malformed
  else pure (Char.ofNat unit)

/-- What is read is either kept, and has to have a value, or only skipped. -/
inductive Mode
  | kept
  | skipped
  deriving Repr, DecidableEq

/-- The rest of an escape, after the backslash. -/
def escape (mode : Mode) : Reader Char := do
  match ← next with
  | '"' => pure '"'
  | '\\' => pure '\\'
  | '/' => pure '/'
  | 'b' => pure (Char.ofNat 0x08)
  | 'f' => pure (Char.ofNat 0x0C)
  | 'n' => pure '\n'
  | 'r' => pure '\r'
  | 't' => pure '\t'
  | 'u' =>
    let unit ← codeUnit
    match mode with
    | .kept => pairedChar unit
    | .skipped => pure (Char.ofNat unit)
  | _ => throw .malformed

/-- One character of a string, or its closing quote. The characters so far are listed last first. -/
def quotedStep (mode : Mode) (written : List Char) : Reader (List Char ⊕ String) := do
  match ← next with
  | '"' => pure (.inr (.ofList written.reverse))
  | '\\' => pure (.inl ((← escape mode) :: written))
  | c => if c.toNat < 0x20 then throw .malformed else pure (.inl (c :: written))

/-- The rest of a string, after the opening quote. -/
def quoted (mode : Mode) : Reader String :=
  iterate (quotedStep mode) []

/-! ### Numbers -/

/-- A number taken apart. -/
structure Numeral where
  negative : Bool
  /-- The digits before the point. -/
  whole : List Char
  /-- The digits after the point. -/
  fraction : List Char
  /-- The written exponent. -/
  exponent : Int
  deriving Repr

/-- Takes the digits in front; there has to be one at least. A number that is only skipped has no
fault of its own where the text ends. -/
def digits (mode : Mode) : Reader (List Char)
  | [] => .error (if mode = .kept then .ended else .malformed)
  | c :: cs =>
    if c.isDigit then .ok ((c :: cs).takeWhile Char.isDigit, (c :: cs).dropWhile Char.isDigit)
    else .error .malformed

/-- Takes the next character if it is one of these. -/
def oneOf? (chars : List Char) : Reader (Option Char)
  | [] => .ok (none, [])
  | c :: cs => if chars.contains c then .ok (some c, cs) else .ok (none, c :: cs)

/-- Takes a number. A whole part of several digits does not begin with zero. -/
def numeral (mode : Mode) : Reader Numeral := do
  let negative := (← oneOf? ['-']).isSome
  let whole ← digits mode
  if whole.head? == some '0' && whole.length != 1 then throw .malformed
  let fraction ← if (← oneOf? ['.']).isSome then digits mode else pure []
  let exponent ←
    if (← oneOf? ['e', 'E']).isSome then do
      let sign ← oneOf? ['+', '-']
      let size := digitsValue (← digits mode)
      pure (if sign = some '-' then -(size : Int) else size)
    else pure 0
  pure { negative, whole, fraction, exponent }

/-- The greatest whole number of 64 bits. -/
def maxWord : Nat := 18446744073709551615

/-- The number of the first digits that fit into 64 bits after `n`, and the digits left over. -/
def leadingWord (n : Nat) : List Char → Nat × List Char
  | [] => (n, [])
  | c :: cs => if addDigit n c ≤ maxWord then leadingWord (addDigit n c) cs else (n, c :: cs)

/-- Rounds to 53 binary digits; a half goes to the even neighbour. -/
def roundBinary (n : Nat) : Nat :=
  let excess := n.log2 + 1 - 53
  let unit := Nat.pow 2 excess
  let quotient := n / unit
  let remainder := n % unit
  let up := unit < 2 * remainder || (2 * remainder == unit && quotient % 2 == 1)
  (if up then quotient + 1 else quotient) * unit

namespace Numeral

/-- Is the number too large for a binary floating point number of 64 bits? The digits that do not
fit into 64 bits only count as places. -/
def isHuge (n : Numeral) : Bool :=
  let (significand, places) := leadingWord 0 n.whole
  let (significand, dropped) := leadingWord significand n.fraction
  let power := n.exponent + places.length - (n.fraction.length - dropped.length : Nat)
  let isWord := n.fraction.isEmpty && n.exponent == 0 && places.isEmpty
  !isWord && significand != 0 && 0 ≤ power
    && (308 < power
      || Nat.pow 2 1024
        ≤ roundBinary (roundBinary significand * roundBinary (Nat.pow 10 power.toNat)))

end Numeral

end Reader

end BuildAtlas.Json
