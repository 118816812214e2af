import BuildAtlas.Json.Record
import BuildAtlas.Proofs.Json.Lawful

/-!
# BuildAtlas.Proofs.Json.Record

A record with fields of different names is read back from its object.

The induction is on the list of fields. Reading a member of a later field leaves the places before
it as they are (`receive_cons_of_ne`), so a run over the later fields is one over all fields with
the first place filled already.
-/

namespace BuildAtlas.Json

open Reader

namespace Fields

/-- The names of the fields, in order. -/
@[simp] def names : {αs : List Type} → Fields αs → List String
  | _, nil => []
  | _, cons name _ _ rest => name :: rest.names

/-- Every field has a lawful codec and a name of its own. -/
@[simp] def Lawful : {αs : List Type} → Fields αs → Prop
  | _, nil => True
  | _, cons name codec _ rest => codec.Lawful ∧ name ∉ rest.names ∧ rest.Lawful

/-- Places that are all filled. -/
def filled : {αs : List Type} → Values αs → Slots αs
  | [], _ => ()
  | _ :: _, (a, as) => (some a, filled as)

variable {α : Type} {αs : List Type}

theorem map_fst_members (fields : Fields αs) (as : Values αs) :
    (fields.members as).map (·.1) = fields.names := by
  induction fields with
  | nil => rfl
  | cons name codec absent rest ih =>
      obtain ⟨a, as⟩ := as
      rw [members, names, List.map_cons, ih as]

theorem complete?_filled (fields : Fields αs) (as : Values αs) :
    fields.complete? (filled as) = some as := by
  induction fields with
  | nil => rfl
  | cons name codec absent rest ih =>
      obtain ⟨a, as⟩ := as
      show ((some a).or absent.key).bind (fun a => (rest.complete? (filled as)).bind fun as =>
        some (a, as)) = _
      rw [ih as]
      rfl

/-- The member of a field is taken into its place, if that is free. -/
theorem receive_cons_self (name : String) (codec : Codec α) (absent : Absent α)
    (rest : Fields αs) (slots : Slots αs) :
    (cons name codec absent rest).receive (none, slots) name = (do
      Reader.token ':'
      pure (some (← codec.read), slots)) := by
  simp only [receive, receive?, if_true]
  rfl

/-- The member of a later field is taken as if the first place were not there. -/
theorem receive_cons_of_ne {name key : String} (hne : key ≠ name) (codec : Codec α)
    (absent : Absent α) (rest : Fields αs) (slot : Option α) (slots : Slots αs) :
    (cons name codec absent rest).receive (slot, slots) key
      = (fun slots => (slot, slots)) <$> rest.receive slots key := by
  simp only [receive, receive?, if_neg hne]
  cases rest.receive? key slots with
  | none =>
      simp only [Option.map_none, map_eq_pure_bind, bind_assoc, pure_bind]
      rfl
  | some read =>
      simp only [Option.map_some, map_eq_pure_bind]
      rfl

theorem takes_receive {fields : Fields αs} (h : fields.Lawful) (layout : Layout) (level : Nat)
    (as : Values αs) :
    Codec.Takes fields.receive layout level fields.blank (fields.members as) (filled as) := by
  induction fields with
  | nil => exact .nil _
  | cons name codec absent rest ih =>
      obtain ⟨a, as⟩ := as
      obtain ⟨hcodec, hname, hrest⟩ := h
      refine @Codec.Takes.cons _ _ layout level _ (some a, rest.blank) _ _ _ _
        (fun hdelimited => ?_) ?_
      · obtain ⟨cs, hcolon, hread⟩ := Codec.token_colon hcodec layout level a hdelimited
        show (cons name codec absent rest).receive (none, rest.blank) name _ = _
        rw [receive_cons_self, bind_ok hcolon, bind_ok hread]
        rfl
      · -- none of the later names is the first one, so the first place stays as it is
        refine (ih hrest as).map (fun slots => (some a, slots)) fun slots key hkey => ?_
        rw [map_fst_members] at hkey
        refine receive_cons_of_ne ?_ codec absent rest (some a) slots
        rintro rfl
        exact hname hkey

/-- The values of the fields are read back from the object that is written for them. -/
theorem read_members {fields : Fields αs} (h : fields.Lawful) (layout : Layout) (level : Nat)
    (as : Values αs) (rest : List Char) :
    ∃ body, (Value.object (fields.members as)).print layout level = '{' :: body ∧
      fields.read ('{' :: (body ++ rest)) = .ok (as, rest) := by
  obtain ⟨body, hprint, hmembers⟩ :=
    Codec.members_of_takes (takes_receive h layout (level + 1) as) rest
  refine ⟨body, hprint, ?_⟩
  have hnext : next ('{' :: (body ++ rest)) = .ok ('{', body ++ rest) := rfl
  rw [read, bind_ok (Codec.scalar?_open (.inr rfl) _)]
  simp only []
  rw [bind_ok hnext, if_pos (beq_self_eq_true _), bind_ok hmembers, complete?_filled]
  rfl

end Fields

theorem Codec.record_lawful {α : Type} {αs : List Type} {fields : Fields αs}
    {values : α → Fields.Values αs} {make : Fields.Values αs → α} (h : fields.Lawful)
    (hmake : ∀ a, make (values a) = a) : (Codec.record fields values make).Lawful where
  begins a layout level := by
    obtain ⟨body, hprint, _⟩ := Fields.read_members h layout level (values a) []
    exact ⟨'{', body, hprint, by decide, by decide⟩
  skips := (Codec.skipsBlanks_scalar?.bind _).map make
  reads a layout level rest _ := by
    obtain ⟨body, hprint, hread⟩ := Fields.read_members h layout level (values a) rest
    show (make <$> fields.read)
      ((Value.object (fields.members (values a))).print layout level ++ rest) = _
    rw [hprint, List.cons_append, map_ok hread, hmake]

end BuildAtlas.Json
