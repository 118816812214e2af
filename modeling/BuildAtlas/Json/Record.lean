import BuildAtlas.Json.Codec

/-!
# BuildAtlas.Json.Record

Codecs of records from the list of their fields.

A record is written as an object with its fields in order. It is read from an object with the
fields in any order, where other members are skipped and a field given twice is no match, or from
an array of the fields in order.
-/

namespace BuildAtlas.Json

/-- What stands for a field that a text does not give. -/
structure Absent (α : Type) where
  /-- The value when an object has no such key. -/
  key : Option α := none
  /-- The value when an array ends before the field. -/
  position : Option α := none

namespace Absent

variable {α : Type}

/-- The field has to be given. -/
def refused : Absent α := {}

/-- The field has a value where it is not given. -/
def standing (a : α) : Absent α := ⟨some a, some a⟩

/-- The field has a value where an object has no such key. -/
def standingInObject (a : α) : Absent α := ⟨some a, none⟩

end Absent

/-- The fields of a record, in order, with the types of their values. -/
inductive Fields : List Type → Type 1
  | nil : Fields []
  | cons {α : Type} {αs : List Type} (name : String) (codec : Codec α) (absent : Absent α)
      (rest : Fields αs) : Fields (α :: αs)

namespace Fields

/-- A value for every field. -/
def Values : List Type → Type
  | [] => Unit
  | α :: αs => α × Values αs

/-- A place for every field, filled when the field is read. -/
def Slots : List Type → Type
  | [] => Unit
  | α :: αs => Option α × Slots αs

/-- Places of which none is filled. -/
def blank : {αs : List Type} → Fields αs → Slots αs
  | _, nil => ()
  | _, cons _ _ _ rest => (none, rest.blank)

/-- The members of the written object. -/
def members : {αs : List Type} → Fields αs → Values αs → List (String × Value)
  | _, nil, _ => []
  | _, cons name codec _ rest, (a, as) => (name, codec.write a) :: rest.members as

/-- Reads the value of the field with the given name, if there is one. -/
def receive? : {αs : List Type} → Fields αs → String → Slots αs → Option (Reader (Slots αs))
  | _, nil, _, _ => none
  | _, cons name codec _ rest, key, (slot, slots) =>
    if key = name then
      some do
        if slot.isSome then throw .mismatched
        Reader.token ':'
        pure (some (← codec.read), slots)
    else
      (rest.receive? key slots).map fun read => do pure (slot, ← read)

variable {αs : List Type}

/-- Reads a member of an object; one that is no field is skipped. -/
def receive (fields : Fields αs) (slots : Slots αs) (key : String) : Reader (Slots αs) :=
  match fields.receive? key slots with
  | some read => read
  | none => do
    Reader.token ':'
    Reader.skip
    pure slots

/-- The values of all fields after the members of an object. -/
def complete? : {αs : List Type} → Fields αs → Slots αs → Option (Values αs)
  | _, nil, _ => some ()
  | _, cons _ _ absent rest, (slot, slots) => do
    let a ← slot.or absent.key
    pure (a, ← rest.complete? slots)

/-- Reads the fields as items of an array. -/
def inOrder : {αs : List Type} → Fields αs → Bool → Reader (Values αs)
  | _, nil, _ => pure ()
  | _, cons _ codec absent rest, isFirst => do
    if ← Codec.more ']' isFirst then
      let a ← codec.read
      pure (a, ← rest.inOrder false)
    else
      match absent.position with
      | some a => pure (a, ← rest.inOrder isFirst)
      | none => throw .mismatched

/-- Reads the values of all fields. -/
def read (fields : Fields αs) : Reader (Values αs) := do
  match ← Codec.scalar? with
  | some _ => throw .mismatched
  | none =>
    if (← Reader.next) == '{' then
      match fields.complete? (← Codec.members fields.receive fields.blank) with
      | some values => pure values
      | none => throw .mismatched
    else
      let values ← fields.inOrder true
      match ← Reader.peekToken? with
      | none => throw .ended
      | some ']' => Reader.word [']']
      | some _ => throw .malformed
      pure values

end Fields

/-- The codec of a record with the given fields. -/
def Codec.record {α : Type} {αs : List Type} (fields : Fields αs)
    (values : α → Fields.Values αs) (make : Fields.Values αs → α) : Codec α where
  write a := .object (fields.members (values a))
  read := make <$> fields.read

end BuildAtlas.Json
