import BuildAtlas.Json.Reader
import BuildAtlas.Json.Value
import BuildAtlas.SortedMap

/-!
# BuildAtlas.Json.Codec

A codec writes the values of a type as JSON and reads them back.

The two directions are given together, so a key or a spelling stands in one place only. Codecs are
built from those of texts, truth values and words by lists, maps and options; `Json.Record` adds
records. What a codec writes it reads back; beyond that it reads every text in which the wanted
value comes with other blanks or escapes.
-/

namespace BuildAtlas.Json

/-- A way to write the values of a type and to read them. -/
structure Codec (α : Type) where
  write : α → Value
  read : Reader α

namespace Codec

variable {α κ σ : Type}

/-- The JSON text of a value. -/
def encode (codec : Codec α) (layout : Layout) (a : α) : String :=
  (codec.write a).render layout

/-- The value that a JSON text describes. -/
def decode (codec : Codec α) (text : String) : Except Fault α :=
  codec.read.run text

/-! ### Scalars -/

/-- Reads the `null`, truth value, number or string in front. An array or an object is no scalar,
and nothing of it is taken. -/
def scalar? : Reader (Option Value) := do
  match ← Reader.peekToken? with
  | none => throw .ended
  | some '[' | some '{' => pure none
  | some 'n' => Reader.word ['n', 'u', 'l', 'l']; pure (some .null)
  | some 't' => Reader.word ['t', 'r', 'u', 'e']; pure (some (.bool true))
  | some 'f' => Reader.word ['f', 'a', 'l', 's', 'e']; pure (some (.bool false))
  | some '"' => Reader.word ['"']; pure (some (.string (← Reader.quoted .kept)))
  | some c =>
    if c == '-' || c.isDigit then do
      let start ← get
      let numeral ← Reader.numeral .kept
      if numeral.isHuge then throw .malformed
      let rest ← get
      pure (some (.number (.ofList (start.take (start.length - rest.length)))))
    else throw .malformed

/-- A text. -/
def string : Codec String where
  write := .string
  read := do
    match ← scalar? with
    | some (.string s) => pure s
    | _ => throw .mismatched

/-- A truth value. -/
def bool : Codec Bool where
  write := .bool
  read := do
    match ← scalar? with
    | some (.bool b) => pure b
    | _ => throw .mismatched

/-- A whole number of 32 bits, written in digits only. -/
def word32 : Codec UInt32 where
  write n := .ofNat n.toNat
  read := do
    match ← scalar? with
    | some (.number literal) =>
      let n := Text.digitsValue literal.toList
      if literal.toList.all Char.isDigit && n < UInt32.size then pure (.ofNat n)
      else throw .mismatched
    | _ => throw .mismatched

/-- A value that may be `null`. -/
def option (codec : Codec α) : Codec (Option α) where
  write
    | none => .null
    | some a => codec.write a
  read := do
    match ← Reader.peekToken? with
    | some 'n' => Reader.word ['n', 'u', 'l', 'l']; pure none
    | _ => some <$> codec.read

/-! ### Arrays and objects -/

/-- Is there another item before the closing bracket? Takes the comma that parts two items. -/
def more (close : Char) (isFirst : Bool) : Reader Bool := do
  match ← Reader.peekToken? with
  | none => throw .ended
  | some c =>
    if c == close then pure false
    else if isFirst then pure true
    else if c == ',' then do
      let _ ← Reader.next
      match ← Reader.peekToken? with
      | none => throw .ended
      | some c => if c == close then throw .malformed else pure true
    else throw .malformed

/-- Another item of an array, or its end. The items so far are listed last first. -/
def itemStep (item : Reader α) (items : List α) : Reader (List α ⊕ List α) := do
  if ← more ']' items.isEmpty then pure (.inl ((← item) :: items))
  else do
    Reader.token ']'
    pure (.inr items.reverse)

/-- The rest of an array, after its bracket. -/
def items (item : Reader α) : Reader (List α) :=
  Reader.iterate (itemStep item) []

/-- The key of a member, up to the colon, which is not taken. -/
def memberKey : Reader String := do
  match ← Reader.peekToken? with
  | none => throw .ended
  | some '"' => Reader.word ['"']; Reader.quoted .kept
  | some _ => throw .malformed

/-- Another member of an object, or the end of the object. -/
def memberStep (member : σ → String → Reader σ) (state : Bool × σ) : Reader ((Bool × σ) ⊕ σ) := do
  if ← more '}' state.1 then do
    let key ← memberKey
    pure (.inl (false, ← member state.2 key))
  else do
    Reader.token '}'
    pure (.inr state.2)

/-- The rest of an object, after its brace: each member changes a state. -/
def members (member : σ → String → Reader σ) (state : σ) : Reader σ :=
  Reader.iterate (memberStep member) (true, state)

/-- Begins an array or an object; whatever else begins here is no match. -/
def opening (bracket : Char) : Reader Unit := do
  match ← scalar? with
  | some _ => throw .mismatched
  | none => if (← Reader.next) == bracket then pure () else throw .mismatched

/-- A list, written as an array. -/
def list (codec : Codec α) : Codec (List α) where
  write as := .array (as.map codec.write)
  read := do
    opening '['
    items codec.read

/-- The two directions between keys and their texts. -/
structure KeyText (κ : Type) where
  toText : κ → String
  ofText? : String → Option κ

/-- Texts as keys. -/
def KeyText.text : KeyText String := ⟨id, some⟩

/-- Reads the value of a member and puts it at the key of the member. -/
def insertMember [Ord κ] [Std.TransOrd κ] (keys : KeyText κ) (codec : Codec α)
    (m : SortedMap κ α) (text : String) : Reader (SortedMap κ α) :=
  match keys.ofText? text with
  | none => throw .mismatched
  | some key => do
    Reader.token ':'
    pure (m.insert key (← codec.read))

/-- A map, written as an object; of members with one key the last counts. -/
def map [Ord κ] [Std.TransOrd κ] (keys : KeyText κ) (codec : Codec α) :
    Codec (SortedMap κ α) where
  write m := .object (m.toList.map fun entry => (keys.toText entry.1, codec.write entry.2))
  read := do
    opening '{'
    members (insertMember keys codec) ∅

/-! ### Enumerations -/

/-- The texts of the listed values as keys. -/
def KeyText.ofNames (values : List α) (name : α → String) : KeyText α where
  toText := name
  ofText? text := values.find? (name · == text)

/-- A value known by its name: the name alone, or an object with the name as its only key and
`null` as its value. -/
def enumeration (names : KeyText α) : Codec α where
  write a := .string (names.toText a)
  read := do
    let named (text : String) : Reader α :=
      match names.ofText? text with
      | some a => pure a
      | none => throw .mismatched
    match ← Reader.peekToken? with
    | none => throw .ended
    | some '"' => named (← string.read)
    | some '{' =>
      Reader.word ['{']
      let a ← named (← memberKey)
      Reader.token ':'
      match ← scalar? with
      | some .null => Reader.token '}'
      | _ => throw .mismatched
      pure a
    | _ => throw .malformed

/-! ### Any value -/

/-- A value with at most `depth` brackets around one another. -/
def tree (depth : Nat) : Reader Value := do
  match ← scalar? with
  | some value => pure value
  | none =>
    match depth with
    | 0 => throw .malformed
    | depth + 1 =>
      if (← Reader.next) == '[' then .array <$> items (tree depth)
      else
        .object <$> SortedMap.toList <$> members (fun m key => do
          Reader.token ':'
          pure (m.insert key (← tree depth))) (∅ : SortedMap String Value)

/-- Any value with at most `depth` brackets around one another. -/
def value (depth : Nat) : Codec Value where
  write := id
  read := tree depth

end Codec

/-! ### Skipping -/

namespace Reader

/-- Where the skipping of a value stands. -/
inductive Place
  /-- Before a value. -/
  | value
  /-- After an opening bracket. -/
  | opened
  /-- After a value. -/
  | after
  deriving Repr, DecidableEq

/-- Skips the next scalar, or an opening bracket. The closing brackets to come are listed innermost
first. -/
def skipStart (closing : List Char) : Reader (Place × List Char) := do
  match ← peekToken? with
  | none => throw .ended
  | some '[' => word ['[']; pure (.opened, ']' :: closing)
  | some '{' => word ['{']; pure (.opened, '}' :: closing)
  | some 'n' => word ['n', 'u', 'l', 'l']; pure (.after, closing)
  | some 't' => word ['t', 'r', 'u', 'e']; pure (.after, closing)
  | some 'f' => word ['f', 'a', 'l', 's', 'e']; pure (.after, closing)
  | some '"' => word ['"']; let _ ← quoted .skipped; pure (.after, closing)
  | some c =>
    if c == '-' || c.isDigit then do
      let _ ← numeral .skipped
      pure (.after, closing)
    else throw .malformed

/-- Skips a key with its colon where a member has to begin, and what begins its value. -/
def skipItem (close : Char) (closing : List Char) : Reader (Place × List Char) := do
  if close == '}' then
    token '"'
    let _ ← quoted .skipped
    token ':'
  skipStart (close :: closing)

/-- Skips on to the next place. -/
def skipStep (state : Place × List Char) : Reader ((Place × List Char) ⊕ Unit) := do
  match state with
  | (.value, closing) => .inl <$> skipStart closing
  | (_, []) => pure (.inr ())
  | (place, close :: closing) =>
    match ← peekToken? with
    | none => throw .ended
    | some c =>
      if c == close then do
        let _ ← next
        pure (.inl (.after, closing))
      else if place = .opened then .inl <$> skipItem close closing
      else if c == ',' then do
        let _ ← next
        .inl <$> skipItem close closing
      else throw .malformed

/-- Skips a value of any depth. Numbers of any size and escapes of any code unit may stand in it. -/
def skip : Reader Unit :=
  iterate skipStep (.value, [])

end Reader

end BuildAtlas.Json
