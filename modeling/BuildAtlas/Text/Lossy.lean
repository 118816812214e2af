/-!
# BuildAtlas.Text.Lossy

Reading bytes as UTF-8 where every byte string has a reading.

A byte string that is not UTF-8 reads with a replacement character for each longest start of a
character that breaks off, and for each byte that starts none. The reader is a machine that takes
one byte at a time; its state says which byte may come next.
-/

namespace BuildAtlas.Text

/-- The character that stands for bytes without a reading. -/
def replacement : Char := '\uFFFD'

/-- A character of several bytes, read in part. -/
structure PartialChar where
  /-- The bits read so far. -/
  bits : Nat
  /-- How many bytes follow the next one. -/
  further : Nat
  /-- The least byte that may come next. -/
  low : UInt8 := 0x80
  /-- The greatest byte that may come next. -/
  high : UInt8 := 0xBF
  deriving Repr, DecidableEq

/-- What the first byte of a character of several bytes announces. The bounds exclude overlong
forms, surrogates and everything above U+10FFFF. -/
def PartialChar.ofFirst? (byte : UInt8) : Option PartialChar :=
  let bits := byte.toNat
  if byte < 0xC2 then none
  else if byte < 0xE0 then some { bits := bits - 0xC0, further := 0 }
  else if byte = 0xE0 then some { bits := 0, further := 1, low := 0xA0 }
  else if byte = 0xED then some { bits := 0xD, further := 1, high := 0x9F }
  else if byte < 0xF0 then some { bits := bits - 0xE0, further := 1 }
  else if byte = 0xF0 then some { bits := 0, further := 2, low := 0x90 }
  else if byte < 0xF4 then some { bits := bits - 0xF0, further := 2 }
  else if byte = 0xF4 then some { bits := 4, further := 2, high := 0x8F }
  else none

/-- The reading of a byte between characters: what is written, and the character begun. -/
def beginChar (byte : UInt8) : List Char × Option PartialChar :=
  if byte < 0x80 then ([Char.ofNat byte.toNat], none)
  else
    match PartialChar.ofFirst? byte with
    | some begun => ([], some begun)
    | none => ([replacement], none)

/-- The reading of a byte after `state`. -/
def readByte (state : Option PartialChar) (byte : UInt8) : List Char × Option PartialChar :=
  match state with
  | none => beginChar byte
  | some begun =>
    if begun.low ≤ byte ∧ byte ≤ begun.high then
      let bits := begun.bits * 64 + (byte.toNat - 0x80)
      match begun.further with
      | 0 => ([Char.ofNat bits], none)
      | further + 1 => ([], some { bits, further })
    else
      let (written, next) := beginChar byte
      (replacement :: written, next)

/-- The reading of `bytes` after `state`. -/
def readBytes (state : Option PartialChar) : List UInt8 → List Char
  | [] => if state.isSome then [replacement] else []
  | byte :: bytes =>
    let (written, next) := readByte state byte
    written ++ readBytes next bytes

/-- The reading of `bytes` as UTF-8. -/
def ofBytesLossy (bytes : List UInt8) : String :=
  .ofList (readBytes none bytes)

end BuildAtlas.Text
